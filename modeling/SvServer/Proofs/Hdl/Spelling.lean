import Mathlib.Data.List.Infix
import Mathlib.Data.List.TakeWhile
import SvServer.Proofs.Hdl.Joining

/-!
# How gaps and tokens are written

Blanks, comments, strings and directives, said without the scanner. From how they are written follows
where they end: a line comment before a line break, a block comment at the first mark that closes it, a
string at the first quote that no backslash escapes. Every lexeme is written so (`filler_or_spelled`),
and the block comments that are read in a gap are those that it is written of.
-/

namespace SvServer.Hdl

/-! ## Gaps -/

/-- One run of blanks or one comment, in front of other characters. For a block comment is said whether
it is closed. -/
inductive Filler : (chars behind : List Char) → (closed : Option Bool) → Prop
  | blanks {chars behind : List Char} (all : ∀ c ∈ chars, Text.isAsciiBlank c = true) :
      Filler chars behind none
  | lineComment {body behind : List Char} (unbroken : '\n' ∉ body)
      (ends : ∀ c ∈ behind.head?, c = '\n') : Filler ('/' :: '/' :: body) behind none
  | blockComment {body behind : List Char} (first : ¬['*', '/'] <:+: body ++ ['*']) :
      Filler ('/' :: '*' :: (body ++ ['*', '/'])) behind (some true)
  | openComment {body behind : List Char} (never : ¬['*', '/'] <:+: body) (last : behind = []) :
      Filler ('/' :: '*' :: body) behind (some false)

/-- A gap in front of other characters, with what is said of its block comments in turn. -/
inductive Gap (behind : List Char) : (chars : List Char) → (comments : List Bool) → Prop
  | nil : Gap behind [] []
  | cons {first chars : List Char} {closed : Option Bool} {comments : List Bool}
      (filler : Filler first (chars ++ behind) closed) (more : Gap behind chars comments) :
      Gap behind (first ++ chars) (closed.toList ++ comments)

theorem Gap.eq_nil {behind chars : List Char} {comments : List Bool}
    (gap : Gap behind chars comments) (empty : chars = []) : comments = [] := by
  induction gap with
  | nil => rfl
  | cons filler more ih =>
      obtain ⟨rfl, rest⟩ := List.append_eq_nil_iff.1 empty
      cases filler
      exact ih rest

/-- Only the last comment of a gap can be open, and then nothing stands behind the gap. -/
theorem Gap.last_of_open {behind chars : List Char} {comments : List Bool}
    (gap : Gap behind chars comments) (opened : false ∈ comments) :
    comments.getLast? = some false ∧ behind = [] := by
  induction gap with
  | nil => exact absurd opened List.not_mem_nil
  | @cons first chars closed comments filler more ih =>
      rcases List.mem_append.1 opened with here | later
      · cases filler with
        | blanks | lineComment => cases here
        | blockComment => exact absurd (List.mem_singleton.1 here) Bool.false_ne_true
        | openComment never last =>
            obtain ⟨empty, nothing⟩ := List.append_eq_nil_iff.1 last
            rw [more.eq_nil empty]
            exact ⟨rfl, nothing⟩
      · obtain ⟨last, nothing⟩ := ih later
        rw [List.getLast?_append, last]
        exact ⟨rfl, nothing⟩

/-! ## Tokens -/

/-- Characters that may stand in a string literal: those escaped by a backslash, and all others but
backslashes, quotes and line breaks. -/
inductive Inside : List Char → Prop
  | nil : Inside []
  | escape {rest : List Char} (c : Char) (more : Inside rest) : Inside ('\\' :: c :: rest)
  | plain {c : Char} {rest : List Char} (slash : c ≠ '\\') (lineBreak : c ≠ '\n') (quote : c ≠ '"')
      (more : Inside rest) : Inside (c :: rest)

/-- How a string literal ends: with its closing quote, before a line break or the end of the text, or
after a backslash with nothing to escape. -/
inductive LiteralEnd : (tail behind : List Char) → (closed : Bool) → Prop
  | quote {behind : List Char} : LiteralEnd ['"'] behind true
  | stop {behind : List Char} (ends : ∀ c ∈ behind.head?, c = '\n') : LiteralEnd [] behind false
  | escape : LiteralEnd ['\\'] [] false

theorem LiteralEnd.eq_quote {tail behind : List Char} (ends : LiteralEnd tail behind true) :
    tail = ['"'] := by
  cases ends
  rfl

/-- How a token is written in front of other characters. -/
inductive Spelled : TokenKind → (contents chars behind : List Char) → Prop
  | directive {contents behind : List Char} :
      Spelled .directive contents ('\x60' :: contents) behind
  | closed {contents behind : List Char} (inside : Inside contents) :
      Spelled .string contents ('"' :: (contents ++ ['"'])) behind
  | unclosed {inner tail behind : List Char} (inside : Inside inner)
      (ends : LiteralEnd tail behind false) :
      Spelled .string (inner ++ tail) ('"' :: (inner ++ tail)) behind
  | plain {kind : TokenKind} {contents behind : List Char} (bare : kind ≠ .directive)
      (unquoted : kind ≠ .string) : Spelled kind contents contents behind

/-- A string without its closing quote does not end in one that is not escaped. -/
theorem Inside.append_ne {inner inner' tail behind : List Char} (inside : Inside inner)
    (ends : LiteralEnd tail behind false) (inside' : Inside inner') :
    inner ++ tail ≠ inner' ++ ['"'] := by
  induction inside generalizing inner' with
  | nil =>
      cases ends <;> cases inside' <;> simp
  | escape c more ih =>
      cases inside' with
      | nil => simp
      | escape c' more' => simpa using fun _ => ih more'
      | plain slash => simp [slash.symm]
  | plain slash _ quote more ih =>
      cases inside' with
      | nil => simp [quote]
      | escape => simp [slash]
      | plain _ _ _ more' => simpa using fun _ => ih more'

/-! ## What a scanner takes -/

/-- A block comment goes on to the first mark that closes it. -/
theorem blockCommentLength_first {body : List Char} (first : ¬['*', '/'] <:+: body ++ ['*'])
    (rest : List Char) :
    blockCommentLength (body ++ '*' :: '/' :: rest) = (body.length + 2, true) := by
  induction body with
  | nil => exact blockCommentLength_end ⟨rfl, rfl⟩
  | cons c body ih =>
      rw [List.cons_append, List.infix_cons_iff, not_or] at first
      rw [List.cons_append, blockCommentLength_inner, ih first.2, List.length_cons,
        Nat.add_right_comm _ _ 1]
      rintro ⟨rfl, slash⟩
      refine first.1 (List.cons_prefix_cons.2 ⟨rfl, ?_⟩)
      cases body with
      | nil => cases slash
      | cons d body => exact ⟨_, congrArg (· :: _) (Option.some.inj slash).symm⟩

/-- Without a mark a block comment goes on to the end. -/
theorem blockCommentLength_never {body : List Char} (never : ¬['*', '/'] <:+: body) :
    blockCommentLength body = (body.length, false) := by
  induction body with
  | nil => rfl
  | cons c body ih =>
      rw [List.infix_cons_iff, not_or] at never
      rw [blockCommentLength_inner, ih never.2, List.length_cons]
      rintro ⟨rfl, slash⟩
      obtain ⟨rest, rfl⟩ := List.head?_eq_some_iff.1 slash
      exact never.1 ⟨rest, rfl⟩

/-- A text with a mark that closes a comment has a first one. -/
theorem exists_first_mark (text : List Char) :
    (∃ body rest, text = body ++ '*' :: '/' :: rest ∧ ¬['*', '/'] <:+: body ++ ['*']) ∨
      ¬['*', '/'] <:+: text := by
  induction text with
  | nil => exact .inr (by decide)
  | cons c text ih =>
      by_cases mark : ['*', '/'] <+: c :: text
      · obtain ⟨rest, split⟩ := mark
        exact .inl ⟨[], rest, split.symm, by decide⟩
      rcases ih with ⟨body, rest, rfl, first⟩ | never
      · refine .inl ⟨c :: body, rest, rfl, ?_⟩
        rw [List.cons_append, List.infix_cons_iff, not_or]
        refine ⟨fun here => mark (here.trans ⟨'/' :: rest, ?_⟩), first⟩
        rw [List.cons_append, List.append_assoc]
        rfl
      · exact .inr fun mark' => (List.infix_cons_iff.1 mark').elim mark never

/-- A string goes on over what may stand in it. -/
theorem stringLength_append {inner : List Char} (inside : Inside inner) (rest : List Char) :
    stringLength (inner ++ rest) = (inner.length + (stringLength rest).1, (stringLength rest).2) := by
  induction inside with
  | nil => rw [List.nil_append, List.length_nil, Nat.zero_add]
  | escape c more ih =>
      rw [List.cons_append, List.cons_append, stringLength_escape, ih, List.length_cons,
        List.length_cons, Nat.add_right_comm _ _ 2]
  | plain slash lineBreak quote more ih =>
      rw [List.cons_append, stringLength_inner slash lineBreak quote, ih, List.length_cons,
        Nat.add_right_comm _ _ 1]

/-- A string literal ends at the first quote that is not escaped, or else before a line break that is
not, or at the end of the text. -/
theorem exists_inside (text : List Char) : ∃ inner tail, Inside inner ∧
    text.take (stringLength text).1 = inner ++ tail ∧
      LiteralEnd tail (text.drop (stringLength text).1) (stringLength text).2 := by
  induction text using stringLength.induct with
  | case1 => exact ⟨[], [], .nil, rfl, .stop nofun⟩
  | case2 => exact ⟨[], ['\\'], .nil, rfl, .escape⟩
  | case3 c rest _ _ _ ih =>
      obtain ⟨inner, tail, inside, taken, ends⟩ := ih
      rw [stringLength_escape]
      exact ⟨'\\' :: c :: inner, tail, .escape c inside,
        congrArg (fun taken => '\\' :: c :: taken) taken, ends⟩
  | case4 rest =>
      rw [stringLength_lineBreak]
      exact ⟨[], [], .nil, rfl, .stop fun c first => (Option.some.inj first).symm⟩
  | case5 rest =>
      rw [stringLength_quote]
      exact ⟨[], ['"'], .nil, rfl, .quote⟩
  | case6 c rest last escape lineBreak quote _ _ _ ih =>
      obtain ⟨inner, tail, inside, taken, ends⟩ := ih
      have slash : c ≠ '\\' := by
        rintro rfl
        cases rest with
        | nil => exact last rfl rfl
        | cons d rest => exact escape d rest rfl rfl
      rw [stringLength_inner slash lineBreak quote]
      exact ⟨c :: inner, tail, .plain slash lineBreak quote inside, congrArg (c :: ·) taken, ends⟩

/-! ## Lexemes -/

/-- A gap begins with a blank or with the mark of a comment. -/
def BeginsGap (text : List Char) : Prop :=
  (∃ c ∈ text.head?, Text.isAsciiBlank c = true) ∨ ['/', '/'] <+: text ∨ ['/', '*'] <+: text

/-- What is said of a lexeme that is a block comment. -/
def Lexeme.closed? (lexeme : Lexeme) : Option Bool :=
  match lexeme.kind with
  | .blockComment closed => some closed
  | _ => none

theorem scanner_of_beginsGap {c : Char} {rest : List Char} (gap : BeginsGap (c :: rest)) :
    scanner c rest.head? = .blanks ∨ scanner c rest.head? = .lineComment ∨
      scanner c rest.head? = .blockComment := by
  rcases gap with ⟨d, first, blank⟩ | mark | mark
  · rw [Option.some.inj first]
    unfold scanner
    exact .inl (if_pos blank)
  all_goals
    obtain ⟨rfl, more, rfl⟩ := List.cons_prefix_cons.1 mark
  · exact .inr (.inl rfl)
  · exact .inr (.inr rfl)

/-- The marks that a lexeme begins with. -/
theorem marks_of_scanner {c : Char} {next : Option Char} : match scanner c next with
    | .lineComment => c = '/' ∧ next = some '/'
    | .directive => c = '\x60'
    | .string => c = '"'
    | _ => True := by
  fun_cases scanner c next with
  | case2 _ _ opens => exact opens
  | case5 | case9 => rfl
  | _ => trivial

/-- A line comment ends before a line break. -/
theorem filler_lineComment (rest : List Char) :
    Filler ('/' :: '/' :: rest.takeWhile (· ≠ '\n')) (rest.dropWhile (· ≠ '\n')) none := by
  refine .lineComment (fun broken => ?_) fun c first => ?_
  · exact absurd (List.mem_takeWhile_imp broken) (by decide)
  · have stops := List.head?_dropWhile_not (· ≠ '\n') rest
    rw [Option.mem_def.1 first] at stops
    simpa using stops

/-- A block comment ends at the first mark that closes it, or goes on to the end. -/
theorem filler_blockComment (rest : List Char) :
    Filler ('/' :: '*' :: rest.take (blockCommentLength rest).1)
      (rest.drop (blockCommentLength rest).1) (some (blockCommentLength rest).2) := by
  rcases exists_first_mark rest with ⟨body, behind, rfl, first⟩ | never
  · have split : body ++ '*' :: '/' :: behind = body ++ ['*', '/'] ++ behind := by
      rw [List.append_assoc]
      rfl
    rw [blockCommentLength_first first, split, List.take_left' (by simp), List.drop_left' (by simp)]
    exact .blockComment first
  · rw [blockCommentLength_never never, List.take_length, List.drop_length]
    exact .openComment never rfl

/-- Without its quotes a string literal is what may stand in it, with a backslash at the end if there is
nothing to escape. -/
theorem Lexeme.contents_of_string {lexeme : Lexeme} {inner tail behind : List Char} {closed : Bool}
    (kind : lexeme.kind = .string closed) (chars : lexeme.chars = '"' :: (inner ++ tail))
    (ends : LiteralEnd tail behind closed) :
    lexeme.contents = if closed then inner else inner ++ tail := by
  cases closed with
  | true =>
      rw [contents, kind, chars, ends.eq_quote]
      exact List.dropLast_concat
  | false =>
      rw [contents, kind, chars]
      rfl

theorem spelled_string {lexeme : Lexeme} {inner tail behind : List Char} {closed : Bool}
    (kind : lexeme.kind = .string closed) (chars : lexeme.chars = '"' :: (inner ++ tail))
    (inside : Inside inner) (ends : LiteralEnd tail behind closed) :
    Spelled .string lexeme.contents lexeme.chars behind := by
  rw [Lexeme.contents_of_string kind chars ends, chars]
  cases closed with
  | true =>
      rw [ends.eq_quote]
      exact .closed inside
  | false => exact .unclosed inside ends

/-- A lexeme with a token is no comment. -/
theorem Lexeme.closed?_of_token {lexeme : Lexeme} {kind : TokenKind}
    (known : lexeme.tokenKind? = some kind) : lexeme.closed? = none := by
  rw [closed?]
  split
  case h_1 closed comment =>
    rw [tokenKind?, comment] at known
    cases known
  case h_2 => rfl

/-- **A lexeme is a gap or the text of a token**, and a token begins where no gap does. -/
theorem filler_or_spelled {c : Char} {rest : List Char} {kind : LexemeKind} {length : Nat}
    (classified : classify c rest = (kind, length)) :
    let lexeme : Lexeme := ⟨kind, c :: rest.take length⟩
    let behind := rest.drop length
    (lexeme.tokenKind? = none ∧ Filler lexeme.chars behind lexeme.closed?) ∨
      ∃ kind, lexeme.tokenKind? = some kind ∧ ¬BeginsGap (c :: rest) ∧
        Spelled kind lexeme.contents lexeme.chars behind := by
  have solid := @scanner_of_beginsGap c rest
  have marks := @marks_of_scanner c rest.head?
  rw [classify_eq_scan] at classified
  generalize known : scanner c rest.head? = used at classified marks solid
  obtain ⟨rfl, rfl⟩ := Prod.ext_iff.1 classified
  cases used with
  | blanks =>
      refine .inl ⟨rfl, .blanks fun d member => ?_⟩
      rcases List.mem_cons.1 member with rfl | member
      · exact isAsciiBlank_of_scanner known
      · exact mem_take_runLength member
  | lineComment =>
      obtain ⟨rfl, slash⟩ := marks
      obtain ⟨more, rfl⟩ := List.head?_eq_some_iff.1 slash
      refine .inl ⟨rfl, ?_⟩
      dsimp only [Scanner.scan]
      rw [take_runLength, drop_runLength, List.takeWhile_cons_of_pos (by decide),
        List.dropWhile_cons_of_pos (by decide)]
      exact filler_lineComment more
  | blockComment =>
      obtain ⟨more, rfl⟩ := List.head?_eq_some_iff.1 (next_of_scanner known)
      rw [eq_slash_of_scanner known]
      exact .inl ⟨rfl, filler_blockComment more⟩
  | directive =>
      exact .inr ⟨.directive, rfl, fun gap => by simpa using solid gap, marks ▸ .directive⟩
  | string =>
      obtain rfl : c = '"' := marks
      obtain ⟨inner, tail, inside, taken, ends⟩ := exists_inside rest
      exact .inr ⟨.string, rfl, fun gap => by simpa using solid gap,
        spelled_string rfl (congrArg ('"' :: ·) taken) inside ends⟩
  | _ => exact .inr ⟨_, rfl, fun gap => by simpa using solid gap, .plain nofun nofun⟩

section Strings

variable {text : List Char} {before behind : List Lexeme} {lexeme : Lexeme} {closed : Bool}

/-- A lexeme with a token has it among those of the text. -/
theorem mem_tokens_of_lexemes (cut : Lexeme.ofChars text = before ++ lexeme :: behind)
    {kind : TokenKind} (known : lexeme.tokenKind? = some kind) :
    ⟨kind, String.ofList lexeme.contents, Text.byteLength (Lexeme.flatten before),
      Text.byteLength (Lexeme.flatten before) + Text.byteLength lexeme.chars⟩ ∈ tokens text := by
  rw [tokens_eq, cut, Lexeme.readFrom_append, Lexeme.readFrom_cons, Lexeme.token?, known, Nat.zero_add]
  exact List.mem_append_right _ (.head _)

theorem Lexeme.kind_of_string (known : lexeme.tokenKind? = some .string) :
    ∃ closed, lexeme.kind = .string closed := by
  rw [tokenKind?] at known
  cases same : lexeme.kind with
  | string closed => exact ⟨closed, rfl⟩
  | _ => rw [same] at known; cases known

theorem scanner_of_string {c : Char} {rest : List Char}
    (kind : (classify c rest).1 = .string closed) : scanner c rest.head? = .string := by
  rw [classify_eq_scan] at kind
  cases known : scanner c rest.head? with
  | string => rfl
  | _ => rw [known] at kind; cases kind

/-- A string has its closing quote if the lexer found one. -/
theorem Lexeme.chars_of_string (cut : ofChars text = before ++ lexeme :: behind)
    (kind : lexeme.kind = .string closed) : ∃ inner tail, Inside inner ∧
      lexeme.chars = '"' :: (inner ++ tail) ∧ LiteralEnd tail (flatten behind) closed := by
  have filled : lexeme.chars ≠ [] := chars_ne_nil (by
    rw [cut]
    exact List.mem_append_right _ (.head _))
  have again := ofChars_flatten cut
  obtain ⟨found, chars⟩ := lexeme
  obtain ⟨c, more, rfl⟩ := List.exists_cons_of_ne_nil filled
  rw [flatten_cons, List.cons_append, ofChars_cons] at again
  obtain ⟨first, rest⟩ := List.cons.inj again
  obtain ⟨rfl, chars⟩ := Lexeme.mk.inj first
  have scanned := scanner_of_string kind
  have quote : c = '"' := by
    have marks := @marks_of_scanner c (more ++ flatten behind).head?
    rwa [scanned] at marks
  rw [classify_eq_scan, scanned] at kind chars rest
  cases kind
  obtain ⟨inner, tail, inside, taken, ends⟩ := exists_inside (more ++ flatten behind)
  refine ⟨inner, tail, inside, ?_, ?_⟩
  · rw [← taken, ← quote]
    exact chars.symm
  · have left : (more ++ flatten behind).drop (stringLength (more ++ flatten behind)).1 =
        flatten behind := by
      rw [← flatten_ofChars (List.drop _ _)]
      exact congrArg flatten rest
    rwa [left] at ends

end Strings

/-! ## Comments of a gap -/

/-- Blanks in front of a text add nothing to what is read of it, if nothing is read of blanks. -/
theorem Lexeme.filterMap_blanks {β : Type} (read : Lexeme → Option β)
    (skips : ∀ lexeme : Lexeme, lexeme.kind = .blank → read lexeme = none) {blanks : List Char}
    (all : ∀ c ∈ blanks, Text.isAsciiBlank c = true) (rest : List Char) :
    (ofChars (blanks ++ rest)).filterMap read = (ofChars rest).filterMap read := by
  have same (start : Nat) (lexemes : List Lexeme) :
      readFrom (fun lexeme _ => read lexeme) start lexemes = lexemes.filterMap read := by
    induction lexemes generalizing start with
    | nil => rfl
    | cons lexeme rest ih =>
        rw [readFrom_cons, ih, List.filterMap_cons]
        cases read lexeme <;> rfl
  rw [← same 0, readFrom_blanks _ (fun lexeme _ => skips lexeme) all, same]

/-- The comments of a text that begins with a gap are those of the gap and those behind it. -/
theorem Filler.closed?_eq {chars behind : List Char} {closed : Option Bool}
    (filler : Filler chars behind closed) :
    (Lexeme.ofChars (chars ++ behind)).filterMap Lexeme.closed? =
      closed.toList ++ (Lexeme.ofChars behind).filterMap Lexeme.closed? := by
  cases filler with
  | blanks all =>
      refine Lexeme.filterMap_blanks _ (fun lexeme blank => ?_) all behind
      rw [Lexeme.closed?, blank]
  | @lineComment body behind unbroken ends =>
      have scanned : classify '/' ('/' :: (body ++ behind)) =
          (.lineComment, runLength (· ≠ '\n') ('/' :: (body ++ behind))) := by
        rw [classify_eq_scan]
        rfl
      have inner : ∀ c ∈ body, decide (c ≠ '\n') = true := fun c member =>
        decide_eq_true fun same => unbroken (same ▸ member)
      have left : ('/' :: (body ++ behind)).dropWhile (· ≠ '\n') = behind := by
        rw [List.dropWhile_cons_of_pos (by decide), List.dropWhile_append_of_pos inner]
        cases behind with
        | nil => rfl
        | cons c rest =>
            rw [ends c rfl]
            exact List.dropWhile_cons_of_neg (by decide)
      rw [List.cons_append, List.cons_append, Lexeme.ofChars_cons, scanned, drop_runLength, left]
      rfl
  | @blockComment body behind first =>
      have split : body ++ ['*', '/'] ++ behind = body ++ '*' :: '/' :: behind := by
        rw [List.append_assoc]
        rfl
      have scanned : classify '/' ('*' :: (body ++ '*' :: '/' :: behind)) =
          (.blockComment true, body.length + 2 + 1) := by
        rw [classify_eq_scan, show scanner '/' _ = .blockComment from rfl, Scanner.scan, List.tail_cons,
          blockCommentLength_first first]
      rw [List.cons_append, List.cons_append, split, Lexeme.ofChars_cons, scanned, List.drop_succ_cons,
        ← List.drop_drop, List.drop_left]
      rfl
  | @openComment body behind never last =>
      have scanned : classify '/' ('*' :: body) = (.blockComment false, body.length + 1) := by
        rw [classify_eq_scan, show scanner '/' _ = .blockComment from rfl, Scanner.scan, List.tail_cons,
          blockCommentLength_never never]
      rw [last, List.append_nil, Lexeme.ofChars_cons, scanned, List.drop_succ_cons, List.drop_length]
      rfl

theorem Gap.closed?_eq {behind chars : List Char} {comments : List Bool}
    (gap : Gap behind chars comments) :
    (Lexeme.ofChars (chars ++ behind)).filterMap Lexeme.closed? =
      comments ++ (Lexeme.ofChars behind).filterMap Lexeme.closed? := by
  induction gap with
  | nil => rfl
  | cons filler more ih => rw [List.append_assoc, filler.closed?_eq, ih, List.append_assoc]

/-- **The comments of a gap are settled by its text.** -/
theorem Gap.comments_unique {behind chars : List Char} {comments comments' : List Bool}
    (gap : Gap behind chars comments) (gap' : Gap behind chars comments') : comments = comments' :=
  List.append_cancel_right (gap.closed?_eq.symm.trans gap'.closed?_eq)

end SvServer.Hdl
