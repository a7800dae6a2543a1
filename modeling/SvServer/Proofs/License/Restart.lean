import Mathlib.Data.List.TakeWhile
import SvServer.License.FileStore
import SvServer.Proofs.Disk
import SvServer.Proofs.License.Refusal
import SvServer.Proofs.MacroTable

/-!
# What is left of a key after a restart

A key that was found good is written to the file of the store as it is, but for the blanks around
it. What is read back is the first word of the file. So a fresh gate over the same store does not
judge the key that was judged before: it judges what stands in front of the first blank of it, and
the two are the same exactly for a key without blanks inside.
-/

namespace SvServer

namespace Text

/-- The front of a text, up to its first blank. -/
def frontChars (text : List Char) : List Char := text.takeWhile fun c => !isBlank c

/-- The front of a text, up to its first blank. -/
def front (text : String) : String := String.ofList (frontChars text.toList)

/-- **The first word of a text that does not begin with a blank is its front.** -/
theorem head?_words {first : Char} (solid : isBlank first = false) (rest : List Char) :
    (words (first :: rest)).head? = some (frontChars (first :: rest)) := by
  induction rest generalizing first with
  | nil =>
      rw [words.eq_def, frontChars]
      simp [solid]
  | cons second rest ih =>
      rw [frontChars, List.takeWhile_cons_of_pos (by rw [solid]; rfl), words.eq_def]
      dsimp only
      rw [if_neg (Bool.eq_false_iff.1 solid)]
      by_cases blank : isBlank second = true
      · rw [if_pos blank, List.takeWhile_cons_of_neg (by rw [blank]; decide)]
        rfl
      · rw [if_neg blank]
        -- The first word goes on, so it is that of the rest with one more character in front.
        have next := ih (Bool.eq_false_iff.2 blank)
        cases found : words (second :: rest) with
        | nil =>
            rw [found] at next
            exact absurd next nofun
        | cons word more =>
            rw [found] at next
            show some (first :: word) = _
            rw [Option.some.inj next, frontChars]

/-- A trimmed text does not begin with a blank. -/
theorem isBlank_of_trimChars_eq_cons {text rest : List Char} {first : Char}
    (trimmed : trimChars text = first :: rest) : isBlank first = false := by
  rw [Bool.eq_false_iff]
  intro blank
  -- Trimmed once more, the text would be shorter.
  have again := trimChars_trimChars text
  rw [trimmed, trimChars, List.dropWhile_cons_of_pos blank] at again
  have dropped := (List.dropWhile_suffix isBlank (l := rest)).length_le
  have cut := (List.dropWhile_suffix isBlank (l := (rest.dropWhile isBlank).reverse)).length_le
  have whole := congrArg List.length again
  rw [List.length_reverse, List.length_cons] at whole
  rw [List.length_reverse] at cut
  omega

/-- **A trimmed text is read back up to its first blank**, and an empty one not at all. -/
theorem head?_words_trim (given : String) : (words (trim given).toList).head?.map String.ofList =
    if trim given = "" then none else some (front (trim given)) := by
  rw [trim, front]
  cases trimmed : trimChars given.toList with
  | nil => rfl
  | cons first rest =>
      have solid := isBlank_of_trimChars_eq_cons trimmed
      rw [if_neg, String.toList_ofList, head?_words solid rest]
      · rfl
      · intro empty
        have none := congrArg String.toList empty
        rw [String.toList_ofList] at none
        exact absurd none (List.cons_ne_nil _ _)

theorem front_of_solid {text : String} (solid : ∀ c ∈ text.toList, isBlank c = false) :
    front text = text := by
  have whole : frontChars text.toList = text.toList := by
    rw [frontChars, List.takeWhile_eq_self_iff]
    intro c member
    rw [solid c member]
    rfl
  rw [front, whole, String.ofList_toList]

end Text

namespace License

variable {validator : String → Bool} {gate : Gate} {file given : String} {disk : Disk}

/-! ## What the file holds -/

theorem read_fileStore (file : String) (disk : Disk) :
    (fileStore file).read disk = readKey file disk := by
  rw [fileStore]

/-- **What is written to the store is read back from it up to the first blank.** -/
theorem readKey_of_writeKey {after : Disk}
    (written : writeKey file (Text.trim given) disk = .ok after) :
    readKey file after =
      if Text.trim given = "" then none else some (Text.front (Text.trim given)) := by
  obtain ⟨contents, stored, found⟩ := Disk.resolve_of_write written
  have text : after.text? (.ofString file) = some (Text.trim given) := by
    rw [Disk.text?, Disk.file?, Disk.entry?, found]
    exact stored
  rw [readKey, text, Option.bind_some, Text.head?_words_trim]

/-- A key that opens the gate without a warning was found good, and lies in the file. -/
theorem written_of_takeKey
    (opened : (gate.takeKey validator (fileStore file) disk given).1.isValid = true)
    (clean : ∀ event ∈ (gate.takeKey validator (fileStore file) disk given).2.1,
      event.isWarning = false) :
    validator (Text.trim given) = true ∧ writeKey file (Text.trim given) disk =
      .ok (gate.takeKey validator (fileStore file) disk given).2.2 := by
  have good : validator (Text.trim given) = true :=
    (Guard.isValid_takeKey ⟨gate, fileStore file, disk⟩ given).symm.trans opened
  refine ⟨good, ?_⟩
  rw [Gate.takeKey] at clean ⊢
  dsimp only [fileStore] at clean ⊢
  rw [if_pos good] at clean ⊢
  cases written : writeKey file (Text.trim given) disk with
  | ok after => rfl
  | error error =>
      rw [written] at clean
      exact absurd (clean (.warning _) List.mem_cons_self).symm Bool.false_ne_true

/-! ## After the restart -/

/-- What becomes of a key that lies in the store, when a fresh gate looks into it. -/
structure Restart (validator : String → Bool) (store : Store Disk) (key : String) (disk : Disk) :
    Prop where
  /-- The store gives back the front of the key, -/
  read : store.read disk = if key = "" then none else some (Text.front key)
  /-- and the gate opens exactly if that is a good key. -/
  opens : (Gate.initial.loadStored validator store disk).1.isValid = true ↔
    key ≠ "" ∧ validator (Text.front key) = true
  /-- A key without a blank inside opens it again. -/
  whole : key ≠ "" → (∀ c ∈ key.toList, Text.isBlank c = false) →
    (Gate.initial.loadStored validator store disk).1.isValid = true

/-- **What a restart makes of a key**: one that opened a gate without a warning opens the next one
over the same file exactly if what stands in front of its first blank is a good key, too. -/
theorem restart_of_takeKey
    (opened : (gate.takeKey validator (fileStore file) disk given).1.isValid = true)
    (clean : ∀ event ∈ (gate.takeKey validator (fileStore file) disk given).2.1,
      event.isWarning = false) :
    Restart validator (fileStore file) (Text.trim given)
      (gate.takeKey validator (fileStore file) disk given).2.2 := by
  obtain ⟨good, written⟩ := written_of_takeKey opened clean
  generalize (gate.takeKey validator (fileStore file) disk given).2.2 = after at written ⊢
  have read : (fileStore file).read after =
      if Text.trim given = "" then none else some (Text.front (Text.trim given)) := by
    rw [read_fileStore, readKey_of_writeKey written]
  have opens : (Gate.initial.loadStored validator (fileStore file) after).1.isValid = true ↔
      Text.trim given ≠ "" ∧ validator (Text.front (Text.trim given)) = true := by
    have looked : (Guard.perform validator ⟨.initial, fileStore file, after⟩
        .loadStored).1.gate.isValid = _ := Guard.isValid_loadStored _
    rw [Guard.perform, Guard.holdsGood, read] at looked
    refine (iff_of_eq (congrArg (· = true) looked)).trans ?_
    by_cases empty : Text.trim given = ""
    · rw [if_pos empty]
      exact iff_of_false Bool.false_ne_true fun both => both.1 empty
    · rw [if_neg empty]
      exact (iff_of_eq rfl).trans (and_iff_right empty).symm
  refine ⟨read, opens, fun some solid => opens.2 ⟨some, ?_⟩⟩
  rw [Text.front_of_solid solid]
  exact good

/-- A fresh gate over a file that is not there yet takes a key. -/
def firstKey (validator : String → Bool) (given : String) : Gate × List Event × Disk :=
  Gate.initial.takeKey validator (fileStore "key.txt") ⟨.empty, .ofString "/", 0⟩ given

/-- A key between blanks. -/
theorem restart_of_firstKey :
    (firstKey (· == "good") " good\n").1.isValid = true ∧
      (∀ event ∈ (firstKey (· == "good") " good\n").2.1, event.isWarning = false) ∧
      Restart (· == "good") (fileStore "key.txt") (Text.trim " good\n")
        (firstKey (· == "good") " good\n").2.2 := by
  have opened : (firstKey (· == "good") " good\n").1.isValid = true := by decide +kernel
  have clean : ∀ event ∈ (firstKey (· == "good") " good\n").2.1, event.isWarning = false := by
    decide +kernel
  exact ⟨opened, clean, restart_of_takeKey opened clean⟩

/-- **A key with a blank inside is refused after the restart.** -/
theorem refused_after_restart :
    (firstKey (· == "two words") "two words").1.isValid = true ∧
      (∀ event ∈ (firstKey (· == "two words") "two words").2.1, event.isWarning = false) ∧
      Gate.initial.loadStored (· == "two words") (fileStore "key.txt")
          (firstKey (· == "two words") "two words").2.2 =
        (⟨.invalid, some "two", false⟩, [.invalid]) := by
  decide +kernel

end License

end SvServer
