import SvServer.Proofs.Unit.ParallelWalk
import SvServer.Proofs.Include.Recognition
import SvServer.Proofs.Hdl.Joining

/-!
# Lines of texts that are put together

What a directive reads of its line depends on the text behind it. It stays the same when the text in
front is exchanged, and when the text behind its line is.
-/

namespace SvServer

open Hdl

namespace Hdl

/-! ## Ends of logical lines -/

theorem le_logicalLineEndFrom (start : Nat) (text : List Char) (position : Nat) (before last : Char) :
    position ≤ logicalLineEndFrom start text position before last := by
  induction text generalizing position before last with
  | nil => exact Nat.le_refl _
  | cons c rest ih =>
      rw [logicalLineEndFrom]
      split
      · exact Nat.le_refl _
      · exact Nat.le_trans (Nat.le_add_right _ _) (ih _ _ _)

theorem logicalLineEndFrom_shift (count start : Nat) (text : List Char) (position : Nat)
    (before last : Char) : logicalLineEndFrom (count + start) text (count + position) before last =
      count + logicalLineEndFrom start text position before last := by
  induction text generalizing position before last with
  | nil => rfl
  | cons c rest ih =>
      simp only [logicalLineEndFrom, Nat.add_le_add_iff_left]
      split
      · rfl
      · rw [Nat.add_assoc, ih]

/-- A character that escapes no line break may as well be a blank. -/
theorem logicalLineEndFrom_of_unescaped {last : Char} (slash : last ≠ '\\') (carriage : last ≠ '\r')
    (start : Nat) (text : List Char) (position : Nat) (before : Char) :
    logicalLineEndFrom start text position before last =
      logicalLineEndFrom start text position ' ' ' ' := by
  have second (c : Char) (rest : List Char) (position : Nat) :
      logicalLineEndFrom start rest position last c = logicalLineEndFrom start rest position ' ' c := by
    cases rest with
    | nil => rfl
    | cons d rest => simp [logicalLineEndFrom, slash]
  cases text with
  | nil => rfl
  | cons c rest => simp [logicalLineEndFrom, slash, carriage, second]

/-- **A line begins anew** behind a character that escapes no line break. -/
theorem logicalLineEnd_append {front : List Char}
    (unescaped : ∀ c ∈ front.getLast?, c ≠ '\\' ∧ c ≠ '\r') (text : List Char) :
    logicalLineEnd (front ++ text) (Text.byteLength front) =
      Text.byteLength front + logicalLineEnd text 0 := by
  have last : (lastTwo front).2 ≠ '\\' ∧ (lastTwo front).2 ≠ '\r' := by
    rw [lastTwo_snd]
    cases known : front.getLast? with
    | none => decide
    | some c => exact unescaped c known
  rw [logicalLineEnd_eq_from, logicalLineEndFrom_of_unescaped last.1 last.2]
  exact logicalLineEndFrom_shift (Text.byteLength front) 0 text 0 ' ' ' '

theorem logicalLineEndFrom_eq_of_lt {start position : Nat} {inner text : List Char}
    {before last : Char}
    (inside : logicalLineEndFrom start (inner ++ text) position before last <
      position + Text.byteLength inner) (text' : List Char) :
    logicalLineEndFrom start (inner ++ text') position before last =
      logicalLineEndFrom start (inner ++ text) position before last := by
  induction inner generalizing position before last with
  | nil =>
      have far := le_logicalLineEndFrom start text position before last
      exact absurd inside (Nat.not_lt.2 far)
  | cons c inner ih =>
      rw [List.cons_append, logicalLineEndFrom] at inside ⊢
      rw [List.cons_append, logicalLineEndFrom]
      split at inside
      case isTrue ends => rw [if_pos ends, if_pos ends]
      case isFalse goes =>
        rw [Text.byteLength_cons, ← Nat.add_assoc] at inside
        rw [if_neg goes, if_neg goes, ih inside]

/-- **A line that ends within a text** ends there whatever stands behind the text. -/
theorem logicalLineEnd_eq_of_lt {start : Nat} {inner text : List Char}
    (inside : logicalLineEnd (inner ++ text) start < Text.byteLength inner) (text' : List Char) :
    logicalLineEnd (inner ++ text') start = logicalLineEnd (inner ++ text) start :=
  logicalLineEndFrom_eq_of_lt (by rwa [Nat.zero_add]) text'

theorem eq_lineBreak_of_logicalLineEndFrom {start position : Nat} {inner rest : List Char}
    {c before last : Char}
    (ends : logicalLineEndFrom start (inner ++ c :: rest) position before last =
      position + Text.byteLength inner) : c = '\n' := by
  induction inner generalizing position before last with
  | nil =>
      rw [List.nil_append, logicalLineEndFrom] at ends
      split at ends
      case isTrue here => exact here.2.1
      case isFalse =>
        have far := le_logicalLineEndFrom start rest (position + c.utf8Size) last c
        have size := c.utf8Size_pos
        rw [Text.byteLength_nil] at ends
        omega
  | cons d inner ih =>
      rw [List.cons_append, logicalLineEndFrom, Text.byteLength_cons] at ends
      split at ends
      · have size := d.utf8Size_pos
        omega
      · exact ih (ends.trans (Nat.add_assoc _ _ _).symm)

/-- A line ends at a line break or at the end of the text. -/
theorem eq_lineBreak_of_logicalLineEnd {start : Nat} {inner rest : List Char} {c : Char}
    (ends : logicalLineEnd (inner ++ c :: rest) start = Text.byteLength inner) : c = '\n' :=
  eq_lineBreak_of_logicalLineEndFrom (ends.trans (Nat.zero_add _).symm)

end Hdl

namespace Unit

/-! ## What is read of a line -/

/-- The token right behind a directive, if it begins on the line of the directive. -/
def onLine? (file : SourceFile) (directive : Token) (rest : List Token) : Option Token :=
  rest.head?.filter fun token => token.start < file.lineEnd directive

theorem operand?_eq (file : SourceFile) (directive : Token) (rest : List Token) :
    operand? file directive rest = (onLine? file directive rest).filter (·.kind == .identifier) := by
  rw [operand?, onLine?, Option.filter_filter]

/-- The include name that a token begins. -/
def includeNameAt? (file : SourceFile) (directive next : Token) : Option String :=
  if next.kind = .string ∧ next.text ≠ "" then some next.text
  else if next.text = "<" then
    Include.bracketed? (Text.slice file.text next.stop (file.lineEnd directive))
  else none

theorem includeName?_eq (file : SourceFile) (directive : Token) (rest : List Token) :
    (includeName? file directive rest).map Prod.fst =
      (onLine? file directive rest).bind (includeNameAt? file directive) := by
  cases behind : rest.head? with
  | none => rw [includeName?, onLine?, behind]; rfl
  | some next =>
      have named : (includeName? file directive rest).map Prod.fst = _ :=
        Include.followedName?_eq behind
      rw [named, onLine?, behind]
      by_cases here : next.start < file.lineEnd directive
      · rw [if_pos here, Option.filter_some, if_pos (decide_eq_true here), Option.bind_some,
          includeNameAt?]
      · rw [if_neg here, Option.filter_some, if_neg (by simpa using here)]
        rfl

/-- Two tokens that begin what is read of their lines, which is the same. -/
structure SameStart (file file' : SourceFile) (directive directive' next next' : Token) : Prop where
  plainly : plain next' = plain next
  left : Text.slice file'.text next'.stop (file'.lineEnd directive') =
    Text.slice file.text next.stop (file.lineEnd directive)
  opens : ((Text.dropBytes file'.text next'.stop).head? == some '(') =
    ((Text.dropBytes file.text next.stop).head? == some '(')

/-- **What is read of a line** depends on the token that begins it. -/
theorem lineReading_congr {file file' : SourceFile} {directive directive' : Token}
    {rest rest' : List Token}
    (length : lineLength file' directive' rest' = lineLength file directive rest)
    (first : Option.Rel (SameStart file file' directive directive') (onLine? file directive rest)
      (onLine? file' directive' rest')) :
    lineReading file' directive' rest' = lineReading file directive rest := by
  rw [lineReading, lineReading, length, operand?_eq, operand?_eq, includeName?_eq, includeName?_eq]
  generalize onLine? file directive rest = next, onLine? file' directive' rest' = next' at first
  cases first with
  | none => rfl
  | @some next next' same =>
      obtain ⟨kind, text⟩ := Prod.mk.inj same.plainly
      rw [Option.bind_some, Option.bind_some, includeNameAt?, includeNameAt?, Option.filter_some,
        Option.filter_some, kind, text, same.left]
      split
      · simp only [Option.map_some, text, same.left, same.opens]
      · rfl

/-! ## Exchanged text in front -/

/-- Text in front of a line does not matter. -/
theorem lineReading_moved {file : SourceFile} {front text : List Char}
    (unescaped : ∀ c ∈ front.getLast?, c ≠ '\\' ∧ c ≠ '\r') (whole : file.text = front ++ text)
    (directive : Token) (stop : directive.stop = Text.byteLength front) (words : List Token) :
    lineReading file directive (words.map (Token.shift (Text.byteLength front))) =
      lineReading ⟨file.path, text⟩ { directive with stop := 0 } words := by
  have ends : file.lineEnd directive = Text.byteLength front +
      SourceFile.lineEnd ⟨file.path, text⟩ { directive with stop := 0 } := by
    rw [SourceFile.lineEnd, whole, stop, logicalLineEnd_append unescaped]
    rfl
  have starts (token : Token) :
      decide ((token.shift (Text.byteLength front)).start < file.lineEnd directive) =
        decide (token.start < SourceFile.lineEnd ⟨file.path, text⟩ { directive with stop := 0 }) := by
    rw [ends, Token.shift]
    exact decide_eq_decide.2 Nat.add_lt_add_iff_left
  apply lineReading_congr
  · rw [lineLength, lineLength, List.takeWhile_map, List.length_map]
    congr 2
    funext token
    exact starts token
  · cases words with
    | nil => exact .none
    | cons next words =>
        rw [onLine?, onLine?, List.map_cons, List.head?_cons, List.head?_cons, Option.filter_some,
          Option.filter_some, starts]
        split
        case isFalse => exact .none
        case isTrue =>
          refine .some ⟨rfl, ?_, ?_⟩
          · rw [ends, whole]
            exact Text.slice_append front text _ _
          · rw [whole]
            exact congrArg (fun rest : List Char => rest.head? == some '(')
              (Text.dropBytes_append front text _)

/-- A directive ends in a character that escapes no line break. -/
theorem unescaped_of_directive {text : List Char} {lexeme : Lexeme}
    (member : lexeme ∈ Lexeme.ofChars text) (kind : lexeme.kind = .directive) (front : List Char) :
    ∀ c ∈ (front ++ lexeme.chars).getLast?, c ≠ '\\' ∧ c ≠ '\r' := by
  obtain ⟨d, more, chars, name⟩ := Lexeme.chars_of_directive member kind
  intro c last
  have listed : c ∈ d :: more := by
    rw [chars, List.getLast?_append, List.getLast?_cons, List.getLast?_cons] at last
    obtain rfl : c = more.getLast?.getD d := by simpa using last.symm
    cases known : more.getLast? with
    | none => exact .head _
    | some e => exact .tail _ (List.mem_of_getLast? known)
  constructor <;> rintro rfl <;> exact absurd (name _ listed) (by decide)

/-- **The same text behind other text** has the same tokens, and its directives read the same. -/
theorem sameWords_moved {file file' : SourceFile} {front front' : List Char} {behind : List Lexeme}
    (cut : Lexeme.ofChars (Lexeme.flatten behind) = behind)
    (whole : file.text = front ++ Lexeme.flatten behind)
    (whole' : file'.text = front' ++ Lexeme.flatten behind) :
    SameWords file file'
      (Lexeme.readFrom Lexeme.token? (Text.byteLength front) behind)
      (Lexeme.readFrom Lexeme.token? (Text.byteLength front') behind) := by
  induction behind generalizing front front' with
  | nil => exact .nil
  | cons lexeme rest ih =>
      have member : lexeme ∈ Lexeme.ofChars (Lexeme.flatten (lexeme :: rest)) := by
        rw [cut]
        exact .head _
      rw [Lexeme.flatten_cons, ← List.append_assoc] at whole whole'
      have behind : Lexeme.ofChars (Lexeme.flatten (lexeme :: rest)) = [lexeme] ++ rest := cut
      have others := ih (Lexeme.ofChars_flatten behind) whole whole'
      rw [Text.byteLength_append, Text.byteLength_append] at others
      rw [Lexeme.readFrom_cons, Lexeme.readFrom_cons, Lexeme.token?, Lexeme.token?]
      cases known : lexeme.tokenKind? with
      | none => exact others
      | some kind =>
          refine .cons rfl (fun directive => ?_) others
          have isDirective : lexeme.kind = .directive :=
            Lexeme.kind_of_tokenKind? (known.trans (congrArg some directive))
          have moved {file : SourceFile} {front : List Char}
              (whole : file.text = front ++ lexeme.chars ++ Lexeme.flatten rest) :=
            lineReading_moved (unescaped_of_directive member isDirective front) whole
              ⟨kind, String.ofList lexeme.contents, Text.byteLength front,
                Text.byteLength front + Text.byteLength lexeme.chars⟩
              (Text.byteLength_append _ _).symm (Lexeme.readFrom Lexeme.token? 0 rest)
          have here := moved whole
          have here' := moved whole'
          rw [← readFrom_token?, Nat.add_zero, Text.byteLength_append] at here here'
          exact here'.trans here.symm

/-! ## Exchanged text behind -/

section Behind

variable {file file' : SourceFile} {inner text text' : List Char}
variable (whole : file.text = inner ++ text) (whole' : file'.text = inner ++ text')
variable {directive : Token} {between tail tail' : List Token}

/-- The tokens stand within the first part of a text. -/
def Within (inner : List Char) (words : List Token) : Prop :=
  ∀ token ∈ words, token.start < Text.byteLength inner ∧ Text.IsBoundary inner token.stop

/-- The tokens, if there are any, begin behind the first part of a text. -/
def Beyond (inner : List Char) (words : List Token) : Prop :=
  ∀ token ∈ words.head?, Text.byteLength inner ≤ token.start

theorem Beyond.append {words words' : List Token} (beyond : Beyond inner words)
    (beyond' : Beyond inner words') : Beyond inner (words ++ words') := by
  cases words with
  | nil => exact beyond'
  | cons => exact beyond

theorem takeWhile_append_of_head {α : Type} {p : α → Bool} {before after : List α}
    (stops : ∀ a ∈ after.head?, p a = false) :
    (before ++ after).takeWhile p = before.takeWhile p := by
  induction before with
  | nil =>
      cases after with
      | nil => rfl
      | cons a after =>
          exact List.takeWhile_cons_of_neg ((Bool.not_eq_true _).mpr (stops a rfl))
  | cons b before ih =>
      rw [List.cons_append, List.takeWhile_cons, List.takeWhile_cons, ih]

include whole whole'

/-- **Text behind the line** does not matter. -/
theorem lineReading_of_within (within : Within inner between) (beyond : Beyond inner tail)
    (beyond' : Beyond inner tail') (inside : file.lineEnd directive < Text.byteLength inner)
    (opens : (text'.head? == some '(') = (text.head? == some '(')) :
    lineReading file' directive (between ++ tail') = lineReading file directive (between ++ tail) := by
  have ends : file'.lineEnd directive = file.lineEnd directive := by
    rw [SourceFile.lineEnd, whole] at inside
    rw [SourceFile.lineEnd, SourceFile.lineEnd, whole, whole',
      logicalLineEnd_eq_of_lt inside text']
  have off {tail : List Token} (beyond : Beyond inner tail) : ∀ token ∈ tail.head?,
      decide (token.start < file.lineEnd directive) = false := fun token first =>
    decide_eq_false (Nat.not_lt.2 (Nat.le_trans (Nat.le_of_lt inside) (beyond token first)))
  apply lineReading_congr
  · rw [lineLength, lineLength, ends, takeWhile_append_of_head (off beyond),
      takeWhile_append_of_head (off beyond')]
  · cases between with
    | nil =>
        have none {tail : List Token} (beyond : Beyond inner tail) :
            tail.head?.filter (fun token => token.start < file.lineEnd directive) = none := by
          rw [Option.filter_eq_none_iff]
          exact fun token first => (Bool.not_eq_true _).mpr (off beyond token first)
        rw [onLine?, onLine?, ends, List.nil_append, List.nil_append, none beyond, none beyond']
        exact .none
    | cons next between =>
        rw [onLine?, onLine?, ends, List.cons_append, List.cons_append, List.head?_cons,
          List.head?_cons, Option.filter_some]
        split
        case isFalse => exact .none
        case isTrue =>
          obtain ⟨before, left, rfl, stop⟩ := (within next (.head _)).2
          refine .some ⟨rfl, ?_, ?_⟩
          · rw [ends, whole, whole', stop, Text.slice_append_of_le (Nat.le_of_lt inside),
              Text.slice_append_of_le (Nat.le_of_lt inside)]
          · rw [whole, whole', stop, List.append_assoc, List.append_assoc, Text.dropBytes_all,
              Text.dropBytes_all]
            cases left with
            | nil => exact opens
            | cons => rfl

theorem lt_lineEnd_iff {place : Nat} (inside : place < Text.byteLength inner) :
    place < file'.lineEnd directive ↔ place < file.lineEnd directive := by
  have later {file file' : SourceFile} {text text' : List Char} (whole : file.text = inner ++ text)
      (whole' : file'.text = inner ++ text') (before : file'.lineEnd directive ≤ place) :
      file.lineEnd directive ≤ place := by
    rw [SourceFile.lineEnd, whole'] at before
    rw [SourceFile.lineEnd, whole, logicalLineEnd_eq_of_lt (Nat.lt_of_le_of_lt before inside)]
    exact before
  rw [← Nat.not_le, ← Nat.not_le]
  exact not_congr ⟨later whole whole', later whole' whole⟩

/-- The name that follows a directive on its line is the same if it stands before the place. -/
theorem operandName_of_within {next : Token} (within : next.start < Text.byteLength inner)
    (rest rest' : List Token) :
    operandName file' directive (next :: rest') = operandName file directive (next :: rest) := by
  rw [operandName, operandName, operand?, operand?, List.head?_cons, List.head?_cons,
    Option.filter_some, Option.filter_some, decide_eq_decide.2 (lt_lineEnd_iff whole whole' within)]

end Behind

end Unit

end SvServer
