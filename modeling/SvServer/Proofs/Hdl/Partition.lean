import Mathlib.Data.List.Forall2
import SvServer.Proofs.Hdl.Spelling
import SvServer.Proofs.Text.Bytes
import SvServer.Proofs.Unit.Spans

/-!
# Tokens and the gaps between them

The tokens of a text stand in it one after the other, and what is left between them, before the first
and behind the last is made of blanks and comments only. The lexemes lay the text out as gaps and tokens
in turn (`Layout`), and what holds of the offsets follows from that.
-/

namespace SvServer.Hdl

/-! ## Layouts -/

/-- A text as gaps and tokens in turn, from a byte offset on. -/
inductive Layout : (start : Nat) → (text : List Char) → List Token → List (List Bool) → Prop
  | last {start : Nat} {chars : List Char} {comments : List Bool} (gap : Gap [] chars comments) :
      Layout start chars [] [comments]
  | token {start : Nat} {chars span behind : List Char} {comments : List Bool} {token : Token}
      {tokens : List Token} {gaps : List (List Bool)} (gap : Gap (span ++ behind) chars comments)
      (begins : token.start = start + Text.byteLength chars) (filled : span ≠ [])
      (solid : ¬BeginsGap (span ++ behind))
      (spelled : Spelled token.kind token.text.toList span behind)
      (ends : token.stop = token.start + Text.byteLength span)
      (more : Layout token.stop behind tokens gaps) :
      Layout start (chars ++ (span ++ behind)) (token :: tokens) (comments :: gaps)

section Layouts

variable {start : Nat} {text : List Char} {tokens : List Token} {gaps : List (List Bool)}

/-- What stands in front of the first gap and is one itself belongs to it. -/
theorem Layout.cons_filler {first : List Char} {closed : Option Bool}
    (filler : Filler first text closed)
    (layout : Layout (start + Text.byteLength first) text tokens gaps) :
    ∃ gaps', Layout start (first ++ text) tokens gaps' ∧
      gaps'.flatten = closed.toList ++ gaps.flatten := by
  cases layout with
  | last gap =>
      rw [← List.append_nil text] at filler
      exact ⟨_, .last (.cons filler gap), by rw [List.flatten_cons, List.append_assoc]; rfl⟩
  | @token _ chars span behind comments token tokens gaps gap begins filled solid spelled ends more =>
      rw [← List.append_assoc]
      refine ⟨_, .token (.cons filler gap) ?_ filled solid spelled ends more, ?_⟩
      · rw [begins, Text.byteLength_append, Nat.add_assoc]
      · rw [List.flatten_cons, List.append_assoc]
        rfl

/-- **Every text is laid out in its tokens.** -/
theorem exists_layout (text : List Char) (start : Nat) : ∃ gaps,
    Layout start text (Lexeme.readFrom Lexeme.token? start (Lexeme.ofChars text)) gaps ∧
      gaps.flatten = (Lexeme.ofChars text).filterMap Lexeme.closed? := by
  induction text using Lexeme.ofChars.induct generalizing start with
  | case1 =>
      rw [Lexeme.ofChars_nil]
      exact ⟨[[]], .last .nil, rfl⟩
  | case2 c rest kind length classified ih =>
      obtain ⟨gaps, layout, comments⟩ := ih (start + Text.byteLength (c :: rest.take length))
      rw [Lexeme.ofChars_cons, classified, Lexeme.readFrom_cons, List.filterMap_cons]
      have whole : c :: rest = c :: rest.take length ++ rest.drop length := by
        rw [List.cons_append, List.take_append_drop]
      rcases filler_or_spelled classified with ⟨none, filler⟩ | ⟨found, known, solid, spelled⟩
      · obtain ⟨gaps', layout', flat⟩ := layout.cons_filler filler
        refine ⟨gaps', ?_, ?_⟩
        · rw [Lexeme.token?, none, whole]
          exact layout'
        · rw [flat, comments]
          cases (Lexeme.mk kind (c :: rest.take length)).closed? <;> rfl
      · rw [whole] at solid
        let token : Token := ⟨found, String.ofList (Lexeme.mk kind (c :: rest.take length)).contents,
          start, start + Text.byteLength (c :: rest.take length)⟩
        rw [← String.toList_ofList (l := Lexeme.contents _)] at spelled
        have laid : Layout start ([] ++ (c :: rest.take length ++ rest.drop length)) (token :: _)
            ([] :: gaps) := .token .nil rfl (List.cons_ne_nil _ _) solid spelled rfl layout
        rw [Lexeme.token?, known, Lexeme.closed?_of_token known, whole]
        exact ⟨[] :: gaps, laid, comments⟩

/-! ## Partitions -/

/-- The stretches between tokens, before the first and behind the last, as offsets. -/
def stretches (start : Nat) : List Token → (size : Nat) → List (Nat × Nat)
  | [], size => [(start, size)]
  | token :: rest, size => (start, token.start) :: stretches token.stop rest size

/-- Tokens stand in a text from a byte offset on, one after the other, and with the gaps between them
they make up the rest of the text. -/
structure Partition (text : List Char) (start : Nat) (tokens : List Token)
    (gaps : List (List Bool)) : Prop where
  filled : ∀ token ∈ tokens, token.start < token.stop
  ordered : tokens.Pairwise fun a b => a.stop ≤ b.start
  behind : ∀ token ∈ tokens, start ≤ token.start
  stretch : ∀ token ∈ tokens, Text.IsStretch text token.start token.stop
  /-- A token is the text of its span, without its backtick or its quotes. -/
  spelled : ∀ token ∈ tokens, ∃ chars, Text.slice? text token.start token.stop = some chars ∧
    Spelled token.kind token.text.toList chars (Text.dropBytes text token.stop)
  /-- No gap goes on where a token begins. -/
  solid : ∀ token ∈ tokens, ¬BeginsGap (Text.dropBytes text token.start)
  /-- Between the tokens stand gaps. -/
  gaps : List.Forall₂ (fun stretch comments => ∃ chars,
    Text.slice? text stretch.1 stretch.2 = some chars ∧
      Gap (Text.dropBytes text stretch.2) chars comments)
    (stretches start tokens (Text.byteLength text)) gaps

/-- What stands between the tokens is settled by them. -/
theorem Partition.gaps_unique {text : List Char} {start : Nat} {tokens : List Token}
    {gaps gaps' : List (List Bool)} (h : Partition text start tokens gaps)
    (h' : Partition text start tokens gaps') : gaps = gaps' := by
  refine List.right_unique_forall₂' ?_ h.gaps h'.gaps
  rintro stretch comments comments' ⟨chars, cut, gap⟩ ⟨chars', cut', gap'⟩
  rw [cut] at cut'
  obtain rfl := Option.some.inj cut'
  exact gap.comments_unique gap'

/-- **What is laid out is a partition.** -/
theorem Layout.partition (layout : Layout start text tokens gaps) (front : List Char)
    (place : start = Text.byteLength front) : Partition (front ++ text) start tokens gaps := by
  induction layout generalizing front with
  | @last start chars comments gap =>
      refine ⟨nofun, .nil, nofun, nofun, nofun, nofun, .cons ⟨chars, ?_, ?_⟩ .nil⟩
      · have cut := Text.slice?_append front chars []
        rwa [List.append_nil, ← Text.byteLength_append, ← place] at cut
      · have nothing := Text.dropBytes_all (front ++ chars) []
        rw [List.append_nil] at nothing
        rwa [nothing]
  | @token start chars span behind comments token tokens gaps gap begins filled solid spelled ends _
      ih =>
      have first : token.start = Text.byteLength (front ++ chars) := by
        rw [begins, place, Text.byteLength_append]
      have last : token.stop = Text.byteLength (front ++ chars ++ span) := by
        rw [ends, first, Text.byteLength_append (front ++ chars)]
      have rest := ih _ last
      have split : front ++ (chars ++ (span ++ behind)) = front ++ chars ++ span ++ behind := by
        simp only [List.append_assoc]
      have size := Text.byteLength_pos filled
      have ahead : Text.dropBytes (front ++ chars ++ span ++ behind) token.start = span ++ behind := by
        rw [first, List.append_assoc, Text.dropBytes_all]
      have after : Text.dropBytes (front ++ chars ++ span ++ behind) token.stop = behind := by
        rw [last, Text.dropBytes_all]
      have cut := Text.slice?_append (front ++ chars) span behind
      rw [← List.append_assoc, ← first, ← ends] at cut
      have stretch := Text.isStretch_append (front ++ chars) span behind
      rw [← List.append_assoc, ← first, ← ends] at stretch
      have gapCut := Text.slice?_append front chars (span ++ behind)
      rw [split, ← Text.byteLength_append, ← first, ← place] at gapCut
      rw [split]
      exact {
        filled := List.forall_mem_cons.2 ⟨by omega, rest.filled⟩
        ordered := List.pairwise_cons.2 ⟨rest.behind, rest.ordered⟩
        behind := List.forall_mem_cons.2 ⟨by omega, fun other member => by
          have := rest.behind other member
          omega⟩
        stretch := List.forall_mem_cons.2 ⟨stretch, rest.stretch⟩
        spelled := List.forall_mem_cons.2 ⟨⟨span, cut, after.symm ▸ spelled⟩, rest.spelled⟩
        solid := List.forall_mem_cons.2 ⟨ahead.symm ▸ solid, rest.solid⟩
        gaps := .cons ⟨chars, gapCut, ahead.symm ▸ gap⟩ rest.gaps }

/-- Only the last comment of a text can be open. -/
theorem Layout.last_of_open (layout : Layout start text tokens gaps) (opened : false ∈ gaps.flatten) :
    gaps.flatten.getLast? = some false := by
  induction layout with
  | last gap =>
      rw [List.flatten_singleton] at opened ⊢
      exact (gap.last_of_open opened).1
  | token gap _ filled _ _ _ _ ih =>
      rw [List.flatten_cons] at opened ⊢
      rcases List.mem_append.1 opened with here | later
      · exact absurd (List.append_eq_nil_iff.1 (gap.last_of_open here).2).1 filled
      · rw [List.getLast?_append, ih later]
        rfl

end Layouts

/-! ## What is reported -/

/-- A comment is reported if there is an open one. -/
theorem unterminatedComment_iff (text : List Char) :
    (∃ error ∈ lexicalErrors text, error.kind = .unterminatedComment) ↔
      false ∈ (Lexeme.ofChars text).filterMap Lexeme.closed? := by
  have kinds : (lexicalErrors text).map LexicalError.kind =
      (Lexeme.ofChars text).filterMap Lexeme.errorKind? := map_kind_readFrom 0 (Lexeme.ofChars text)
  have same (lexeme : Lexeme) :
      lexeme.errorKind? = some .unterminatedComment ↔ lexeme.closed? = some false := by
    rw [Lexeme.errorKind?, Lexeme.error?, Lexeme.closed?]
    cases lexeme.kind with
    | blockComment closed | string closed => cases closed <;> simp
    | _ => simp
  rw [← List.mem_map, kinds, List.mem_filterMap, List.mem_filterMap]
  simp only [same]

/-- Whether the token is a string with its closing quote. -/
def Token.IsClosed (text : List Char) (token : Token) : Prop :=
  ∃ inner, Inside inner ∧ Text.slice? text token.start token.stop = some ('"' :: (inner ++ ['"']))

section Strings

variable {text : List Char} {before behind : List Lexeme} {lexeme : Lexeme} {closed : Bool}

/-- A string is closed if the lexer found its closing quote. -/
theorem isClosed_iff {token : Token} (cut : Lexeme.ofChars text = before ++ lexeme :: behind)
    (kind : lexeme.kind = .string closed)
    (first : token.start = Text.byteLength (Lexeme.flatten before))
    (last : token.stop = Text.byteLength (Lexeme.flatten before) + Text.byteLength lexeme.chars) :
    token.IsClosed text ↔ closed = true := by
  obtain ⟨inner, tail, inside, chars, ends⟩ := Lexeme.chars_of_string cut kind
  have sliced := Text.slice?_append (Lexeme.flatten before) lexeme.chars (Lexeme.flatten behind)
  rw [← Lexeme.flatten_cons, ← Lexeme.flatten_append, ← cut, Lexeme.flatten_ofChars, ← last, ← first,
    chars] at sliced
  rw [Token.IsClosed, sliced]
  cases closed with
  | true => exact iff_of_true ⟨inner, inside, by rw [ends.eq_quote]⟩ rfl
  | false =>
      refine iff_of_false ?_ Bool.false_ne_true
      rintro ⟨inner', inside', same⟩
      exact inside.append_ne ends inside' (List.cons.inj (Option.some.inj same)).2

/-- A string is reported, with its span, if it is not closed. -/
theorem mem_unterminatedString_iff (text : List Char) (start stop : Nat) :
    ⟨.unterminatedString, start, stop⟩ ∈ lexicalErrors text ↔ ∃ token ∈ tokens text,
      token.kind = .string ∧ token.start = start ∧ token.stop = stop ∧ ¬token.IsClosed text := by
  constructor
  · intro reported
    obtain ⟨⟨lexeme, place⟩, placed, found⟩ := List.mem_filterMap.1 reported
    obtain ⟨before, behind, cut, rfl⟩ := exists_lexemes_of_placed placed
    dsimp only [Lexeme.error?] at found
    split at found
    case h_1 | h_3 => cases found
    case h_2 kind =>
      obtain ⟨-, rfl, rfl⟩ := LexicalError.mk.inj (Option.some.inj found)
      have known : lexeme.tokenKind? = some .string := by rw [Lexeme.tokenKind?, kind]
      refine ⟨_, mem_tokens_of_lexemes cut known, rfl, rfl, rfl, ?_⟩
      rw [isClosed_iff cut kind rfl rfl]
      exact Bool.false_ne_true
  · rintro ⟨token, member, string, rfl, rfl, opened⟩
    obtain ⟨lexeme, placed, found⟩ := exists_placed_of_mem member
    obtain ⟨before, behind, cut, first⟩ := exists_lexemes_of_placed placed
    obtain ⟨_, -, same⟩ := Option.map_eq_some_iff.1 found
    have last : token.stop = token.start + Text.byteLength lexeme.chars :=
      (congrArg Token.stop same).symm
    have known := (Lexeme.token?_eq_some found).1
    rw [string] at known
    obtain ⟨closed, kind⟩ := Lexeme.kind_of_string known
    rw [isClosed_iff cut kind first (first ▸ last), Bool.not_eq_true] at opened
    rw [opened] at kind
    refine List.mem_filterMap.2 ⟨_, placed, ?_⟩
    show lexeme.error? token.start = _
    rw [Lexeme.error?, kind, last]

end Strings

/-- **Tokens and gaps partition the text**, in one way only. A comment is reported if the last block
comment is not closed, and a string if it is not closed. -/
theorem partition_tokens (text : List Char) : ∃ gaps, Partition text 0 (tokens text) gaps ∧
    (∀ gaps', Partition text 0 (tokens text) gaps' → gaps' = gaps) ∧
    ((∃ error ∈ lexicalErrors text, error.kind = .unterminatedComment) ↔
      gaps.flatten.getLast? = some false) ∧
    ∀ start stop, ⟨.unterminatedString, start, stop⟩ ∈ lexicalErrors text ↔ ∃ token ∈ tokens text,
      token.kind = .string ∧ token.start = start ∧ token.stop = stop ∧ ¬token.IsClosed text := by
  obtain ⟨gaps, layout, comments⟩ := exists_layout text 0
  have partition : Partition text 0 (tokens text) gaps := layout.partition [] rfl
  refine ⟨gaps, partition, fun _ other => other.gaps_unique partition, ?_,
    mem_unterminatedString_iff text⟩
  rw [unterminatedComment_iff, ← comments]
  exact ⟨layout.last_of_open, List.mem_of_getLast?⟩

end SvServer.Hdl
