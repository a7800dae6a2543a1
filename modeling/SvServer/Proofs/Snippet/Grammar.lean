import Mathlib.Data.List.TakeWhile
import SvServer.Completion.Snippet
import SvServer.Hdl.Lexeme

/-!
# How an editor reads snippets

A snippet is text with places in it. `$1` and `${1}` are places with a number, `${1:text}` is one
that has a text at first, and `${1|one,two|}` one that offers several. Names in place of numbers stand
for variables of the editor. A backslash takes the meaning from a dollar sign, from a closing brace
and from a backslash. Whatever has no meaning is text.

Characters are gathered into signs first, and then the signs between the two braces of a place are
put into it. Reading goes from the left, so what a text reads as can be said piece by piece
(`Reads`).
-/

namespace SvServer.SnippetGrammar

open SnippetPart (isSpecial)

/-! ## Signs -/

/-- What a place is known by: its number, or the name of a variable. -/
inductive Label where
  | number (number : Nat)
  | word (name : List Char)
deriving DecidableEq

/-- The spelling of a label. -/
def Label.text : Label → List Char
  | number n => (toString n).toList
  | word name => name

inductive Sign where
  /-- A character that stands for itself -/
  | char (c : Char)
  /-- A place without a text of its own -/
  | stop (label : Label)
  /-- A place whose text follows, up to the brace that closes it -/
  | opening (label : Label)
  | choice (number : Nat) (options : List (List Char))
  | closing
deriving DecidableEq

/-- Characters of the name of a variable. -/
def isWordChar (c : Char) : Bool := c.isAlphanum || c = '_'

/-- The label that a text begins with, and its length. -/
def label? (text : List Char) : Option (Label × Nat) :=
  let digits := text.takeWhile Char.isDigit
  let word := text.takeWhile isWordChar
  if digits ≠ [] then some (.number (Nat.ofDigitChars 10 digits 0), digits.length)
  else if word ≠ [] then some (.word word, word.length)
  else none

/-- Options between commas, up to the bar and the brace that end them, and the length of it all. -/
def options? : List Char → Option (List (List Char) × Nat)
  | [] => none
  | '\\' :: c :: rest =>
    if isSpecial c || c = ',' || c = '|' then (options? rest).map (add c 2)
    else (options? (c :: rest)).map (add '\\' 1)
  | '|' :: rest => if rest.head? = some '\x7d' then some ([[]], 2) else none
  | ',' :: rest => (options? rest).map fun (options, length) => ([] :: options, length + 1)
  | c :: rest => (options? rest).map (add c 1)
where
  add (c : Char) (used : Nat) : List (List Char) × Nat → List (List Char) × Nat
    | ([], length) => ([[c]], length + used)
    | (first :: more, length) => ((c :: first) :: more, length + used)

/-- The length of a transformation, up to the brace that ends it, with `depth` places open in it. -/
def transformLength? : (depth : Nat) → List Char → Option Nat
  | _, [] => none
  | depth, '\\' :: _ :: rest => (transformLength? depth rest).map (· + 2)
  | depth, '$' :: '\x7b' :: rest => (transformLength? (depth + 1) rest).map (· + 2)
  | 0, '\x7d' :: _ => some 1
  | depth + 1, '\x7d' :: rest => (transformLength? depth rest).map (· + 1)
  | depth, _ :: rest => (transformLength? depth rest).map (· + 1)

/-- What follows the label of a place in braces: its sign, and the length of what follows. -/
def braced? (label : Label) : List Char → Option (Sign × Nat)
  | '\x7d' :: _ => some (.stop label, 1)
  | ':' :: _ => some (.opening label, 1)
  | '|' :: rest =>
    match label with
    | .number number => (options? rest).map fun (options, length) =>
      (.choice number options, length + 1)
    | .word _ => none
  | '/' :: rest =>
    match label with
    | .number _ => none
    | .word _ => (transformLength? 0 rest).map fun length => (.stop label, length + 1)
  | _ => none

/-- The place after a dollar sign. -/
def place? (text : List Char) : Option (Sign × Nat) :=
  match label? text with
  | some (label, length) => some (.stop label, length)
  | none =>
    match text with
    | '\x7b' :: inside =>
      (label? inside).bind fun (label, length) =>
        (braced? label (inside.drop length)).map fun (sign, more) => (sign, length + more + 1)
    | _ => none

/-- The sign that begins with `c`, and how many of the characters after `c` belong to it. -/
def scan (c : Char) (rest : List Char) : Sign × Nat :=
  if c = '\\' then
    match rest with
    | next :: _ => if isSpecial next then (.char next, 1) else (.char c, 0)
    | [] => (.char c, 0)
  else if c = '\x7d' then (.closing, 0)
  else if c = '$' then (place? rest).getD (.char c, 0)
  else (.char c, 0)

/-- The signs of a text. -/
def signs : List Char → List Sign
  | [] => []
  | c :: rest =>
    let (sign, length) := scan c rest
    sign :: signs (rest.drop length)
termination_by text => text.length
decreasing_by simp only [List.length_drop, List.length_cons]; omega

theorem signs_nil : signs [] = [] := by rw [signs]

theorem signs_cons (c : Char) (rest : List Char) :
    signs (c :: rest) = (scan c rest).1 :: signs (rest.drop (scan c rest).2) := by
  rw [signs]

/-! ## Snippets as they are read -/

/-- What the editor has of a snippet. The text of a place follows the place. -/
inductive Item where
  | char (c : Char)
  | stop (label : Label)
  | filled (label : Label) (text : List Char)
deriving DecidableEq

def Item.place? : Item → Option (Label × List Char)
  | char _ => none
  | stop label => some (label, [])
  | filled label text => some (label, text)

/-- The places, each with the text that it has at first. -/
def places (items : List Item) : List (Label × List Char) := items.filterMap Item.place?

/-- The text that the places of a number show: the first one that any of them has. -/
def shared (items : List Item) (number : Nat) : List Char :=
  (((places items).find? fun place => place.1 = .number number && place.2 ≠ []).map Prod.snd).getD []

/-- What an item shows among all items of the snippet. A variable that the editor does not know shows
its name. -/
def Item.shown (items : List Item) : Item → List Char
  | char c => [c]
  | stop (.number number) => shared items number
  | stop (.word name) => name
  | filled _ _ => []

/-- The text that is inserted, with all places as they are at first. -/
def inserted (items : List Item) : List Char := items.flatMap (Item.shown items)

/-- Characters as items. -/
def chars (text : List Char) : List Item := text.map .char

/-- Places that are still open when the signs end are text. The last one is first. -/
def unwind : List (Label × List Item) → List Item → List Item
  | [], current => current
  | (label, outer) :: frames, current =>
    unwind frames (outer ++ chars ('$' :: '\x7b' :: label.text ++ [':']) ++ current)

/-- Puts signs into the place that is open, whose items so far are `current`. Around it are other open
places, each with its items so far. -/
def nest : List (Label × List Item) → List Item → List Sign → List Item
  | frames, current, [] => unwind frames current
  | frames, current, .char c :: rest => nest frames (current ++ [.char c]) rest
  | frames, current, .stop label :: rest => nest frames (current ++ [.stop label]) rest
  | frames, current, .opening label :: rest => nest ((label, current) :: frames) [] rest
  | frames, current, .choice number options :: rest =>
    let first := options.headD []
    nest frames (current ++ .filled (.number number) first :: chars first) rest
  | [], current, .closing :: rest => nest [] (current ++ [.char '\x7d']) rest
  | (label, outer) :: frames, current, .closing :: rest =>
    nest frames (outer ++ .filled label (inserted current) :: current) rest

/-- A snippet as it is read. -/
def read (text : List Char) : List Item := nest [] [] (signs text)

@[simp] theorem places_append (a b : List Item) : places (a ++ b) = places a ++ places b :=
  List.filterMap_append

@[simp] theorem places_nil : places [] = [] := rfl

@[simp] theorem places_cons_char (c : Char) (rest : List Item) :
    places (.char c :: rest) = places rest := rfl

@[simp] theorem places_cons_stop (label : Label) (rest : List Item) :
    places (.stop label :: rest) = (label, []) :: places rest := rfl

@[simp] theorem places_cons_filled (label : Label) (text : List Char) (rest : List Item) :
    places (.filled label text :: rest) = (label, text) :: places rest := rfl

@[simp] theorem places_chars (text : List Char) : places (chars text) = [] := by
  simp [places, chars, Item.place?]

/-- Characters show themselves. -/
@[simp] theorem flatMap_shown_chars (items : List Item) (text : List Char) :
    (chars text).flatMap (Item.shown items) = text := by
  rw [chars, List.flatMap_map]
  exact List.flatMap_singleton' text

@[simp] theorem inserted_chars (text : List Char) : inserted (chars text) = text :=
  flatMap_shown_chars _ text

/-! ## Reading piece by piece -/

/-- Before `rest`, and inside of these open places, a text is read as these items. -/
def Reads (frames : List (Label × List Item)) (text : List Char) (items : List Item)
    (rest : List Char) : Prop :=
  ∀ current, nest frames current (signs (text ++ rest)) = nest frames (current ++ items) (signs rest)

section Reads

variable {frames : List (Label × List Item)} {a b rest : List Char} {itemsA itemsB : List Item}

theorem Reads.nil : Reads frames [] [] rest := fun current => by
  rw [List.nil_append, List.append_nil]

theorem Reads.append (ha : Reads frames a itemsA (b ++ rest)) (hb : Reads frames b itemsB rest) :
    Reads frames (a ++ b) (itemsA ++ itemsB) rest := fun current => by
  rw [List.append_assoc, ha, hb, List.append_assoc]

theorem Reads.read_eq (h : Reads [] a itemsA []) : read a = itemsA := by
  have whole := h []
  rwa [List.append_nil, List.nil_append, signs_nil] at whole

/-- A character that stands for itself. -/
theorem Reads.char {c : Char} (itself : scan c rest = (.char c, 0)) :
    Reads frames [c] (chars [c]) rest := fun current => by
  rw [List.singleton_append, signs_cons, itself]
  rfl

theorem scan_of_not_special {c : Char} (plain : isSpecial c = false) (rest : List Char) :
    scan c rest = (.char c, 0) := by
  simp only [isSpecial, Bool.or_eq_false_iff, decide_eq_false_iff_not] at plain
  rw [scan.eq_def, if_neg plain.1.1, if_neg plain.2, if_neg plain.1.2]

theorem scan_escaped {c : Char} (special : isSpecial c = true) (rest : List Char) :
    scan '\\' (c :: rest) = (.char c, 1) := by
  rw [scan, if_pos rfl, if_pos special]

/-- **Text without special characters is read as it stands.** -/
theorem reads_literal {text : List Char} (plain : text.any isSpecial = false) :
    Reads frames text (chars text) rest := by
  induction text with
  | nil => exact .nil
  | cons c more ih =>
      rw [List.any_cons, Bool.or_eq_false_iff] at plain
      have first : Reads frames [c] (chars [c]) (more ++ rest) :=
        .char (scan_of_not_special plain.1 _)
      exact first.append (ih plain.2)

/-- **An escaped text is read as the text**, wherever it stands. -/
theorem reads_escape (text : String) :
    Reads frames (SnippetPart.escape text).toList (chars text.toList) rest := by
  rw [SnippetPart.escape, String.toList_ofList]
  induction text.toList with
  | nil => exact .nil
  | cons c more ih =>
      rw [List.flatMap_cons]
      show Reads frames _ (chars [c] ++ chars more) rest
      refine Reads.append ?_ ih
      cases special : isSpecial c with
      | false => exact .char (scan_of_not_special special _)
      | true =>
          intro current
          rw [if_pos rfl, List.cons_append, List.cons_append, signs_cons, scan_escaped special]
          rfl

/-! ## Places with a number -/

theorem toList_toString (number : Nat) : (toString number).toList = Nat.toDigits 10 number := by
  rw [Nat.toString_eq_repr, Nat.repr_eq_ofList_toDigits, String.toList_ofList]

/-- The label that a number spells. -/
theorem label?_toDigits (number : Nat) (rest : List Char) :
    label? (Nat.toDigits 10 number ++ ':' :: rest) =
      some (.number number, (Nat.toDigits 10 number).length) := by
  have run : (Nat.toDigits 10 number ++ ':' :: rest).takeWhile Char.isDigit =
      Nat.toDigits 10 number := by
    rw [List.takeWhile_append_of_pos fun c => Nat.isDigit_of_mem_toDigits (by decide) (by decide),
      List.takeWhile_cons_of_neg (by decide), List.append_nil]
  rw [label?, run, if_pos Nat.toDigits_ne_nil, Nat.ofDigitChars_toDigits (by decide) (by decide)]

theorem scan_opening (number : Nat) (rest : List Char) :
    scan '$' ('\x7b' :: (Nat.toDigits 10 number ++ ':' :: rest)) =
      (.opening (.number number), (Nat.toDigits 10 number).length + 1 + 1) := by
  have noLabel : label? ('\x7b' :: (Nat.toDigits 10 number ++ ':' :: rest)) = none := rfl
  rw [scan.eq_def, if_neg (by decide), if_neg (by decide), if_pos rfl, place?, noLabel]
  simp [label?_toDigits, braced?]

/-- **A place with a number is read as such**, with the text that it encloses. -/
theorem reads_filled {number : Nat}
    (inside : ∀ outer, Reads ((.number number, outer) :: frames) a itemsA ('\x7d' :: rest)) :
    Reads frames ('$' :: '\x7b' :: ((toString number).toList ++ ':' :: (a ++ ['\x7d'])))
      (.filled (.number number) (inserted itemsA) :: itemsA) rest := by
  intro current
  have enclosed := inside current []
  have closed : scan '\x7d' rest = (.closing, 0) := rfl
  rw [signs_cons '\x7d', closed] at enclosed
  have behind (after : List Char) : ('\x7b' :: (Nat.toDigits 10 number ++ ':' :: after)).drop
      ((Nat.toDigits 10 number).length + 1 + 1) = after := by
    rw [List.drop_succ_cons, List.drop_append]
    simp
  rw [toList_toString, List.cons_append, List.cons_append, List.append_assoc, List.cons_append,
    List.append_assoc, signs_cons, scan_opening, behind]
  exact enclosed

/-! ## Names -/

/-- A sign of more than one character may begin with `c` before `next`. -/
def begins (c next : Char) : Bool :=
  (c = '\\' && isSpecial next) || (c = '$' && (isWordChar next || next = '\x7b'))

/-- No sign begins in a text that `next` follows. -/
def inert (next : Char) : List Char → Bool
  | [] => true
  | c :: rest => !begins c (rest.headD next) && inert next rest

theorem not_isDigit_of_not_isWordChar {c : Char} (other : isWordChar c = false) :
    c.isDigit = false := by
  simp only [isWordChar, Char.isAlphanum, Bool.or_eq_false_iff] at other
  exact other.1.2

theorem label?_of_not_word {c : Char} (other : isWordChar c = false) (rest : List Char) :
    label? (c :: rest) = none := by
  simp [label?, other, not_isDigit_of_not_isWordChar other]

theorem scan_of_not_begins {c next : Char} (plain : begins c next = false) (open_ : c ≠ '\x7d')
    (rest : List Char) : scan c (next :: rest) = (.char c, 0) := by
  rw [begins, Bool.or_eq_false_iff] at plain
  by_cases backslash : c = '\\'
  · subst backslash
    have ordinary : isSpecial next = false := by simpa using plain.1
    rw [scan, if_pos rfl, if_neg (by rw [ordinary]; decide)]
  · rw [scan, if_neg backslash, if_neg open_]
    split
    · rename_i dollar
      have other : isWordChar next = false ∧ next ≠ '\x7b' := by simpa [dollar] using plain.2
      rw [place?.eq_def, label?_of_not_word other.1]
      simp [other.2]
    · rfl

/-- **A text without signs is read as it stands.** At the top a closing brace is text, too. -/
theorem reads_inert {text : List Char} {next : Char} (plain : inert next text = true)
    (braces : '\x7d' ∈ text → frames = []) : Reads frames text (chars text) (next :: rest) := by
  induction text with
  | nil => exact .nil
  | cons c more ih =>
      rw [inert, Bool.and_eq_true, Bool.not_eq_true'] at plain
      have tail := ih plain.2 fun member => braces (List.mem_cons_of_mem c member)
      show Reads frames ([c] ++ more) (chars [c] ++ chars more) (next :: rest)
      refine Reads.append ?_ tail
      by_cases brace : c = '\x7d'
      · subst brace
        rw [braces List.mem_cons_self]
        intro current
        rw [List.singleton_append, signs_cons]
        rfl
      · apply Reads.char
        cases more <;> exact scan_of_not_begins plain.1 brace _

/-! ## Identifiers -/

/-- Characters that never continue a sign. -/
def separates (c : Char) : Bool := !isWordChar c && c ≠ '\x7b'

theorem takeWhile_append_of_neg {p : Char → Bool} {c : Char} (other : p c = false)
    (text rest : List Char) : (text ++ c :: rest).takeWhile p = text.takeWhile p := by
  rw [List.takeWhile_append, List.takeWhile_cons_of_neg (by simp [other]), List.append_nil]
  split
  · rename_i whole
    exact (List.IsPrefix.eq_of_length (List.takeWhile_prefix p) whole).symm
  · rfl

/-- What separates does not become part of a label. -/
theorem label?_append {c : Char} (separate : separates c = true) (text rest : List Char) :
    label? (text ++ c :: rest) = label? text := by
  rw [separates, Bool.and_eq_true, Bool.not_eq_true'] at separate
  rw [label?, label?, takeWhile_append_of_neg (not_isDigit_of_not_isWordChar separate.1),
    takeWhile_append_of_neg separate.1]

theorem length_le_of_label? {text : List Char} {label : Label} {length : Nat}
    (found : label? text = some (label, length)) : length ≤ text.length := by
  rw [label?] at found
  split at found
  · obtain ⟨-, rfl⟩ := Prod.mk.inj (Option.some.inj found)
    exact (List.takeWhile_prefix _).length_le
  · split at found
    · obtain ⟨-, rfl⟩ := Prod.mk.inj (Option.some.inj found)
      exact (List.takeWhile_prefix _).length_le
    · cases found

/-- No name begins in a text without a label. -/
theorem not_isWordChar_of_label? {c : Char} {rest : List Char} (none_ : label? (c :: rest) = none) :
    isWordChar c = false := by
  by_contra word
  rw [Bool.not_eq_false] at word
  rw [label?, List.takeWhile_cons_of_pos word] at none_
  split at none_
  · cases none_
  · rw [if_pos (List.cons_ne_nil _ _)] at none_
    cases none_

theorem ne_of_isIdentifierChar {c d : Char} (inside : Hdl.isIdentifierChar c = true)
    (outside : Hdl.isIdentifierChar d = false) : c ≠ d := fun same => by
  rw [same, outside] at inside
  cases inside

/-- What follows a dollar sign that no label follows separates. -/
theorem separates_headD {text : List Char} (identifier : text.all Hdl.isIdentifierChar = true)
    (none_ : label? text = none) {next : Char} (separate : separates next = true) :
    separates (text.headD next) = true := by
  cases text with
  | nil => exact separate
  | cons c rest =>
      have open_ : c ≠ '\x7b' :=
        ne_of_isIdentifierChar (List.all_eq_true.1 identifier c List.mem_cons_self) (by decide)
      simp [separates, not_isWordChar_of_label? none_, open_]

/-- A dollar sign and a label are a place, whatever comes behind what separates. -/
theorem scan_dollar {text : List Char} {label : Label} {length : Nat}
    (found : label? text = some (label, length)) {next : Char} (separate : separates next = true)
    (rest : List Char) : scan '$' (text ++ next :: rest) = (.stop label, length) := by
  rw [scan.eq_def, if_neg (by decide), if_neg (by decide), if_pos rfl, place?.eq_def,
    label?_append separate, found]
  rfl

/-- **What an identifier is read as** does not depend on where it stands. It is a place for every
dollar sign that a letter, a digit or an underscore follows; without any, no sign begins in it. -/
theorem exists_reads_identifier {text : List Char}
    (identifier : text.all Hdl.isIdentifierChar = true) :
    ∃ items, (∀ frames next rest, separates next = true → Reads frames text items (next :: rest)) ∧
      (places items = [] → ∀ next, separates next = true → inert next text = true) := by
  induction size : text.length using Nat.strong_induction_on generalizing text with
  | _ size ih =>
  cases text with
  | nil => exact ⟨[], fun _ _ _ _ => .nil, fun _ _ _ => rfl⟩
  | cons c more =>
      rw [List.all_cons, Bool.and_eq_true] at identifier
      obtain ⟨here, tail⟩ := identifier
      -- A character that stands for itself, whatever comes behind the text.
      have itself (alone : ∀ next, separates next = true → begins c (more.headD next) = false) :
          ∃ items, (∀ frames next rest, separates next = true →
              Reads frames (c :: more) items (next :: rest)) ∧
            (places items = [] → ∀ next, separates next = true → inert next (c :: more) = true) := by
        obtain ⟨items, reads, plain⟩ := ih more.length (by simp [← size]) tail rfl
        refine ⟨.char c :: items, fun frames next rest separate => ?_, fun none_ next separate => ?_⟩
        · refine Reads.append (Reads.char ?_) (reads frames next rest separate)
          cases more <;> exact scan_of_not_begins (alone next separate)
            (ne_of_isIdentifierChar here (by decide)) _
        · rw [inert, alone next separate, plain none_ next separate]
          rfl
      by_cases dollar : c = '$'
      · subst dollar
        cases found : label? more with
        | none =>
            refine itself fun next separate => ?_
            simpa [begins, separates] using separates_headD tail found separate
        | some label =>
            obtain ⟨label, length⟩ := label
            have within := length_le_of_label? found
            obtain ⟨items, reads, -⟩ := ih (more.drop length).length
              (by rw [← size, List.length_drop, List.length_cons]; omega)
              (List.all_eq_true.2 fun d member =>
                List.all_eq_true.1 tail d (List.mem_of_mem_drop member)) rfl
            refine ⟨.stop label :: items, fun frames next rest separate current => ?_,
              fun none_ => absurd none_ (by simp)⟩
            have after := reads frames next rest separate (current ++ [.stop label])
            rw [List.cons_append, signs_cons, scan_dollar found separate, nest,
              List.drop_append_of_le_length within, after, List.append_assoc]
            rfl
      · refine itself fun next _ => ?_
        have backslash : c ≠ '\\' := ne_of_isIdentifierChar here (by decide)
        simp [begins, dollar, backslash]

end Reads

end SvServer.SnippetGrammar
