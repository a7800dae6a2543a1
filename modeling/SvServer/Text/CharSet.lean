import SvServer.Text.Blank
import SvServer.Text.Hex

/-!
Sets of characters, written as a row of code point ranges: `30-39 41-46 5f` is the set of the
decimal digits, of six letters and of the underscore.
-/

namespace SvServer.Text

/-- The code points from the first to the last. -/
structure CodeRange where
  first : Nat
  last : Nat
deriving DecidableEq, Repr

/-- Whether a code point lies in a range. -/
def CodeRange.contains (range : CodeRange) (code : Nat) : Bool :=
  range.first ≤ code && code ≤ range.last

/-- Reads `first-last`, or the one code point of a range that has no other. -/
def CodeRange.read (word : String) : CodeRange :=
  match word.splitOn "-" with
  | [first, last] => ⟨hexNumber first, hexNumber last⟩
  | _ => ⟨hexNumber word, hexNumber word⟩

/-- The characters whose code points lie in some range. -/
structure CharSet where
  ranges : List CodeRange
deriving DecidableEq, Repr

/-- Whether a character is a member. -/
def CharSet.contains (set : CharSet) (c : Char) : Bool :=
  set.ranges.any fun range => range.contains c.toNat

/-- Reads one range from each word. -/
def CharSet.ofWords (words : List String) : CharSet := ⟨words.map CodeRange.read⟩

/-- Reads ranges with blanks between them. -/
def CharSet.read (text : String) : CharSet := .ofWords (wordsOf text)

end SvServer.Text
