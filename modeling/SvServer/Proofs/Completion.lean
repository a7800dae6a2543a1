import Mathlib.Data.List.TakeWhile
import SvServer.Proofs.Server.Runs
import SvServer.Proofs.Text.Offset

/-!
# What a completion replaces

Items are chosen by what was typed on the line before the cursor, without the blanks that the line
begins with. What was typed is cut out of the text at the place that the cursor leads to; the range
that is to be replaced is counted back from the column that the editor named. The two agree where
the cursor is a place of the text. Behind the end of a line they do not, and inside of a character
of two units only if no blank stands in front.
-/

namespace SvServer

namespace Completion

/-- The range leads to the two ends of a stretch of the text. -/
def Encloses (text : List Char) (range : Range) (stretch : List Char) : Prop :=
  ∃ before rest, text = before ++ (stretch ++ rest) ∧
    Text.offset text range.start = Text.byteLength before ∧
    Text.offset text range.stop = Text.byteLength before + Text.byteLength stretch

/-- The part of the line before the cursor, with the blanks that it begins with. -/
def lineFront (text : List Char) (cursor : Position) : List Char :=
  Text.slice text (Text.offset text ⟨cursor.line, 0⟩) (Text.offset text cursor)

/-- The cursor is a place of the text. -/
def IsPlace (text : List Char) (cursor : Position) : Prop :=
  Text.position text (Text.offset text cursor) = cursor

/-- The cursor lies inside of a character, at whose end it counts. -/
def IsInside (text : List Char) (cursor : Position) : Prop :=
  cursor.Before (Text.position text (Text.offset text cursor))

/-! ## The columns of what was typed -/

theorem foldl_units16 (text : List Char) (start : Nat) :
    text.foldl (fun total c => total + units16 c) start = start + Text.width text := by
  induction text generalizing start with
  | nil => rfl
  | cons c rest ih => rw [List.foldl_cons, ih, Text.width_cons, Nat.add_assoc]

theorem typedRange_eq (typed : List Char) (cursor : Position) : typedRange typed cursor =
    ⟨⟨cursor.line, cursor.character - Text.width typed⟩, cursor⟩ := by
  rw [typedRange, foldl_units16, Nat.zero_add]

/-- No blank takes two columns. -/
theorem units16_of_isBlank {c : Char} (blank : Text.isBlank c = true) : units16 c = 1 := by
  rw [units16, if_pos]
  rw [UInt32.lt_iff_toNat_lt]
  show c.toNat < 0x10000
  simp only [Text.isBlank, Bool.or_eq_true, Bool.and_eq_true, decide_eq_true_eq] at blank
  omega

/-- What was typed stands behind the blanks of the line. -/
theorem exists_margin (text : List Char) : ∃ margin, text = margin ++ text.dropWhile Text.isBlank ∧
    ∀ c ∈ margin, Text.isBlank c = true :=
  ⟨text.takeWhile Text.isBlank, List.takeWhile_append_dropWhile.symm,
    fun _ member => List.mem_takeWhile_imp member⟩

/-! ## The line of the cursor -/

section Line

variable {row margin typed ahead : List Char} {column : Nat}

/-- **Where the range begins**: behind the blanks, if the cursor is behind what was typed or if
nothing was; and if it is one column short of that, only at the beginning of the line. -/
theorem columnOffset_start_iff (split : row = margin ++ typed ++ ahead)
    (blanks : ∀ c ∈ margin, Text.isBlank c = true) (unbroken : '\n' ∉ margin ++ typed)
    (led : Text.columnOffset row column = Text.byteLength (margin ++ typed))
    (stop : Text.Stop (margin ++ typed) ahead column) :
    Text.columnOffset row (column - Text.width typed) = Text.byteLength margin ↔
      typed = [] ∨ Text.width (margin ++ typed) = column ∨
        column < Text.width (margin ++ typed) ∧ margin = [] := by
  have unbroken' : '\n' ∉ margin := fun member => unbroken (List.mem_append_left _ member)
  rw [List.append_assoc] at split
  cases typed with
  | nil =>
      rw [List.append_nil] at led
      exact iff_of_true led (.inl rfl)
  | cons c more =>
      have size := Text.width_append margin (c :: more)
      rw [or_iff_right (List.cons_ne_nil c more)]
      cases stop with
      | exact reached =>
          refine iff_of_true ?_ (.inl reached)
          rw [← reached, size, Nat.add_sub_cancel, split]
          exact Text.columnOffset_width unbroken' _
      | short less ends =>
          -- Counted back from behind the end of the line, the range begins too far on.
          refine iff_of_false (Nat.ne_of_gt ?_) (by omega)
          rw [split]
          refine Text.lt_columnOffset (fun member => unbroken ?_) (by omega) (more ++ ahead)
          rw [List.append_cons]
          exact List.mem_append_left _ member
      | pair front d whole wide beyond =>
          rw [or_iff_right (by omega), and_iff_right (by omega)]
          rcases List.eq_nil_or_concat margin with rfl | ⟨front, blank, rfl⟩
          · refine iff_of_true ?_ rfl
            rw [List.nil_append] at beyond
            rw [beyond, Nat.sub_eq_zero_of_le (Nat.le_succ _), Text.columnOffset_zero]
            rfl
          · -- Counted back from inside of a character, it begins one blank too early.
            rw [List.concat_eq_append] at size beyond blanks unbroken' split ⊢
            have narrow : units16 blank = 1 :=
              units16_of_isBlank (blanks blank (List.mem_append_right _ List.mem_cons_self))
            have back : column - Text.width (c :: more) = Text.width front := by
              rw [Text.width_append front, Text.width_cons blank, Text.width_nil] at size
              omega
            refine iff_of_false (Nat.ne_of_lt ?_) (List.append_ne_nil_of_right_ne_nil _ nofun)
            rw [back, split, List.append_assoc, Text.columnOffset_width fun member =>
              unbroken' (List.mem_append_left _ member), Text.byteLength_append]
            exact Nat.lt_add_of_pos_right (Text.byteLength_pos (List.cons_ne_nil _ _))

end Line

/-- **The range encloses what was typed** exactly if nothing was typed, if the cursor is a place of
the text, or if it lies inside of a character and no blank stands in front of what was typed. -/
theorem encloses_typed_iff (text : List Char) (cursor : Position) :
    Encloses text (typedRange (typed text cursor) cursor) (typed text cursor) ↔
      typed text cursor = [] ∨ IsPlace text cursor ∨
        IsInside text cursor ∧ typed text cursor = lineFront text cursor := by
  obtain ⟨line, column⟩ := cursor
  have cut : typed text ⟨line, column⟩ =
      (lineFront text ⟨line, column⟩).dropWhile Text.isBlank := rfl
  rw [typedRange_eq]
  cases Text.lineAt text line with
  | missing leads =>
      have none : typed text ⟨line, column⟩ = [] := by
        rw [cut, lineFront, leads, leads, Text.slice, Nat.sub_self, Text.takeBytes.eq_1]
        rfl
      rw [none]
      refine iff_of_true ⟨text, [], (List.append_nil _).symm, leads _, leads _⟩ (.inl rfl)
  | begins lines row split ends count leads =>
      obtain ⟨passed, ahead, rfl, unbroken, led, stop⟩ := Text.exists_passed row column
      subst split
      have front : lineFront (lines ++ (passed ++ ahead)) ⟨line, column⟩ = passed := by
        rw [lineFront, leads, leads, Text.columnOffset_zero, led]
        exact Text.slice_eq lines passed ahead
      have position : Text.position (lines ++ (passed ++ ahead))
          (Text.offset (lines ++ (passed ++ ahead)) ⟨line, column⟩) =
            ⟨line, Text.width passed⟩ := by
        rw [leads, led, Text.position_of_line ends unbroken, count]
      obtain ⟨margin, whole, blanks⟩ := exists_margin passed
      rw [cut, IsPlace, IsInside, position, front, Position.mk.injEq, Position.Before]
      generalize passed.dropWhile Text.isBlank = typed at whole ⊢
      subst whole
      have begins : Encloses (lines ++ (margin ++ typed ++ ahead))
          ⟨⟨line, column - Text.width typed⟩, ⟨line, column⟩⟩ typed ↔
          Text.columnOffset (margin ++ typed ++ ahead) (column - Text.width typed) =
            Text.byteLength margin := by
        have size := Text.byteLength_append margin typed
        constructor
        · rintro ⟨before, rest, -, start, stop⟩
          rw [leads] at start stop
          omega
        · intro start
          refine ⟨lines ++ margin, ahead, by simp only [List.append_assoc], ?_, ?_⟩
          · rw [leads, start, Text.byteLength_append]
          · rw [leads, led, size, Text.byteLength_append, Nat.add_assoc]
      rw [begins, columnOffset_start_iff rfl blanks unbroken led stop]
      simp only [true_and, Nat.lt_irrefl, false_or, List.self_eq_append_left]

/-- A cursor inside of a clef, behind a blank: what was typed is the clef, and the range begins with
the blank. -/
example : IsInside [' ', '𝄞'] ⟨0, 2⟩ ∧ typed [' ', '𝄞'] ⟨0, 2⟩ = ['𝄞'] ∧
    Text.offset [' ', '𝄞'] (typedRange ['𝄞'] ⟨0, 2⟩).start = 0 := by
  unfold IsInside Position.Before
  decide

/-! ## The items of an answer -/

theorem mem_of_mem_firstOfEachName {declarations : List Declaration} {d : Declaration}
    (kept : d ∈ firstOfEachName declarations) : d ∈ declarations := by
  rw [firstOfEachName] at kept
  induction declarations using List.reverseRecOn with
  | nil => exact kept
  | append_singleton front last ih =>
      rw [List.foldl_append, List.foldl_cons, List.foldl_nil] at kept
      split at kept
      · exact List.mem_append_left _ (ih kept)
      · rcases List.mem_append.1 kept with before | new
        · exact List.mem_append_left _ (ih before)
        · exact List.mem_append_right _ new

/-- Every item has the range of what was typed, and a label that begins with it. -/
theorem of_mem_items {text : List Char} {cursor : Position} {declarations : List Declaration}
    {item : CompletionItem} (listed : item ∈ items text cursor declarations) :
    item.range = typedRange (typed text cursor) cursor ∧
      fits (typed text cursor) item.label = true := by
  rcases List.mem_append.1 listed with construct | instance_
  · obtain ⟨snippet, chosen, rfl⟩ := List.mem_map.1 construct
    exact ⟨rfl, (List.mem_filter.1 chosen).2⟩
  · obtain ⟨declaration, chosen, rfl⟩ := List.mem_map.1 instance_
    have kept := (List.mem_filter.1 (mem_of_mem_firstOfEachName chosen)).2
    exact ⟨rfl, (Bool.and_eq_true_iff.1 kept).2⟩

/-- What an item of an answer replaces. -/
structure Replaces (text : List Char) (cursor : Position) (item : CompletionItem) : Prop where
  /-- The item was chosen by what was typed. -/
  fits : fits (typed text cursor) item.label = true
  /-- The range ends where the cursor leads to. -/
  stop : Text.offset text item.range.stop = Text.offset text cursor
  /-- It encloses what was typed exactly where column and text agree. -/
  encloses_iff : Encloses text item.range (typed text cursor) ↔
    typed text cursor = [] ∨ IsPlace text cursor ∨
      IsInside text cursor ∧ typed text cursor = lineFront text cursor

/-- **What the items of every answer replace.** -/
theorem replaces_of_reply {turn : Turn} {path : Path} {cursor : Position}
    {offered : List CompletionItem}
    (answered : turn.reply (.completion (some path) cursor) = .completions offered) :
    ∃ text, turn.fileText? path = some text ∧ ∀ item ∈ offered, Replaces text cursor item := by
  change turn.completion path cursor = .completions offered at answered
  rw [Turn.completion] at answered
  split at answered
  · split at answered
    · rename_i text read
      cases answered
      refine ⟨text, read, fun item listed => ?_⟩
      obtain ⟨range, fits⟩ := of_mem_items listed
      refine ⟨fits, ?_, ?_⟩
      · rw [range, typedRange_eq]
      · rw [range]
        exact encloses_typed_iff text cursor
    · cases answered
  · cases answered

/-- A licensed server with a project of one file, in which a word has been begun. -/
def typingTurn : Turn :=
  let file : FileContents := ⟨some "  al\n", 5, 0⟩
  let disk : Disk :=
    ⟨.folder "p" true (.file "top.sv" file .empty) .empty, .ofString "/", 1⟩
  let state := Server.afterEvents (Server.opening .initial "license.txt" ⟨.valid, none, true⟩, disk)
    [.request (.setProjectPath (.ofString "/p"))]
  ⟨state.1, state.2, []⟩

/-- What is offered there. -/
def typingOffered (column : Nat) : List CompletionItem :=
  items "  al\n".toList ⟨0, column⟩ typingTurn.server.declarations

theorem reply_typingTurn (column : Nat) :
    typingTurn.reply (.completion (some (.ofString "/p/top.sv")) ⟨0, column⟩) =
      .completions (typingOffered column) := by
  have ready : (typingTurn.server.gate.isValid && typingTurn.server.project.isSome) = true := by
    decide +kernel
  have read : typingTurn.fileText? (.ofString "/p/top.sv") = some "  al\n".toList := by
    decide +kernel
  show typingTurn.completion _ _ = _
  rw [Turn.completion, if_pos ready, read]
  rfl

/-- The cursor right behind the word. -/
theorem replaces_typingTurn :
    typingTurn.reply (.completion (some (.ofString "/p/top.sv")) ⟨0, 4⟩) =
        .completions (typingOffered 4) ∧
      ∃ text, typingTurn.fileText? (.ofString "/p/top.sv") = some text ∧
        ∀ item ∈ typingOffered 4, Replaces text ⟨0, 4⟩ item :=
  ⟨reply_typingTurn 4, replaces_of_reply (reply_typingTurn 4)⟩

/-- **Behind the end of a line nothing is replaced**: the items are those for the word that was
begun, and each is put behind it. -/
theorem replaces_nothing_behind_line :
    typingTurn.reply (.completion (some (.ofString "/p/top.sv")) ⟨0, 100⟩) =
        .completions (typingOffered 100) ∧
      typed "  al\n".toList ⟨0, 100⟩ = "al".toList ∧
      (typingOffered 100).map (·.label) = ["always_comb", "always_ff", "always"] ∧
      ∀ item ∈ typingOffered 100, item.range = ⟨⟨0, 98⟩, ⟨0, 100⟩⟩ ∧
        ¬ Encloses "  al\n".toList item.range "al".toList := by
  have word : typed "  al\n".toList ⟨0, 100⟩ = "al".toList := by decide
  refine ⟨reply_typingTurn 100, word, by decide +kernel, fun item listed => ?_⟩
  obtain ⟨range, -⟩ := of_mem_items listed
  rw [range, word]
  refine ⟨by decide, ?_⟩
  rintro ⟨before, rest, -, start, stop⟩
  -- Both ends lead to the end of the line.
  have same : Text.offset "  al\n".toList (typedRange "al".toList ⟨0, 100⟩).start =
      Text.offset "  al\n".toList (typedRange "al".toList ⟨0, 100⟩).stop := by decide
  have filled : Text.byteLength "al".toList = 2 := by decide
  omega

end Completion

end SvServer
