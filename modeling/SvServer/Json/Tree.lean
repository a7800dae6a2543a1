import SvServer.Json.Token
import SvServer.Json.Float
import SvServer.Json.Basic

/-!
JSON text as a tree of literals, and the value of such a tree. The tree accepts all that the grammar
of JSON accepts. A value is given only to a tree whose numbers fit, whose surrogates pair up and
whose nesting stays within the limit: `Tree.value?`.
-/

namespace SvServer.Json

/-- The shape of a JSON text, with its leaves as written. Repeated keys are all there. -/
inductive Tree where
  | null
  | bool (value : Bool)
  | number (literal : NumberLiteral)
  | string (units : List StringUnit)
  | array (items : List Tree)
  | object (fields : List (List StringUnit × Tree))
deriving Repr, Inhabited

namespace Tree

/-! ## From tokens to a tree -/

/-- A container that is still open, its finished parts innermost first. -/
inductive Frame where
  | array (items : List Tree)
  | object (fields : List (List StringUnit × Tree)) (key : List StringUnit)

/-- What the next token may be. -/
inductive Expected where
  | value
  /-- The first item of an array, or its end -/
  | itemOrEnd
  /-- The first key of an object, or its end -/
  | keyOrEnd
  | key
  | colon
  | commaOrEnd
deriving DecidableEq

/-- A text that is read in part: the open containers, innermost first, and what may come next; or
all of one value. -/
inductive Reading where
  | inside (frames : List Frame) (expected : Expected)
  | done (tree : Tree)

/-- Puts a finished value into the innermost open container. -/
def Reading.place (value : Tree) : List Frame → Reading
  | [] => .done value
  | .array items :: outer => .inside (.array (value :: items) :: outer) .commaOrEnd
  | .object fields key :: outer =>
    .inside (.object ((key, value) :: fields) [] :: outer) .commaOrEnd

/-- Begins or finishes a value. -/
def Reading.beginValue (frames : List Frame) : Token → Option Reading
  | .null => some (.place .null frames)
  | .bool value => some (.place (.bool value) frames)
  | .number literal => some (.place (.number literal) frames)
  | .string units => some (.place (.string units) frames)
  | .openBracket => some (.inside (.array [] :: frames) .itemOrEnd)
  | .openBrace => some (.inside (.object [] [] :: frames) .keyOrEnd)
  | _ => none

/-- Reads one more token. -/
def Reading.step? (reading : Reading) (token : Token) : Option Reading :=
  match reading with
  | .done _ => none
  | .inside frames expected =>
    match expected, frames, token with
    | .itemOrEnd, .array items :: outer, .closeBracket => some (.place (.array items.reverse) outer)
    | .commaOrEnd, .array items :: outer, .closeBracket =>
      some (.place (.array items.reverse) outer)
    | .commaOrEnd, .array _ :: _, .comma => some (.inside frames .value)
    | .keyOrEnd, .object fields _ :: outer, .closeBrace =>
      some (.place (.object fields.reverse) outer)
    | .commaOrEnd, .object fields _ :: outer, .closeBrace =>
      some (.place (.object fields.reverse) outer)
    | .commaOrEnd, .object _ _ :: _, .comma => some (.inside frames .key)
    | .keyOrEnd, .object fields _ :: outer, .string key =>
      some (.inside (.object fields key :: outer) .colon)
    | .key, .object fields _ :: outer, .string key =>
      some (.inside (.object fields key :: outer) .colon)
    | .colon, _, .colon => some (.inside frames .value)
    | .value, _, _ => beginValue frames token
    | .itemOrEnd, _, _ => beginValue frames token
    | _, _, _ => none

/-- The tree of a token sequence that spells exactly one value. -/
def ofTokens? (tokens : List Token) : Option Tree :=
  match tokens.foldlM Reading.step? (.inside [] .value) with
  | some (.done tree) => some tree
  | _ => none

/-- The tree of a JSON text. -/
def ofString? (text : String) : Option Tree := do
  ofTokens? (← Token.ofChars? text.toList)

/-! ## From a tree to a value -/

/-- The text of string units. A surrogate counts only as one half of a pair. -/
def text? : List StringUnit → Option (List Char)
  | [] => some []
  | .char c :: rest => (text? rest).map (c :: ·)
  | .surrogate high :: .surrogate low :: rest =>
    if high < 0xDC00 ∧ 0xDC00 ≤ low then
      (text? rest).map (Char.ofNat (0x10000 + (high - 0xD800) * 0x400 + (low - 0xDC00)) :: ·)
    else none
  | .surrogate _ :: _ => none

/-- The string of string units. -/
def stringText? (units : List StringUnit) : Option String := (text? units).map String.ofList

/-- The largest 64-bit word. -/
def maxWord : Nat := Nat.pow 2 64 - 1

/-- Appends digits to a significand while it fits a word; also gives the digits left over. -/
def appendDigits : Nat → List Nat → Nat × List Nat
  | significand, [] => (significand, [])
  | significand, digit :: rest =>
    if significand * 10 + digit ≤ maxWord then appendDigits (significand * 10 + digit) rest
    else (significand, digit :: rest)

/-- The value of an exponent; `none` once it leaves 32 bits. -/
def exponentValue? : Nat → List Nat → Option Nat
  | value, [] => some value
  | value, digit :: rest =>
    if value * 10 + digit ≤ Nat.pow 2 31 - 1 then exponentValue? (value * 10 + digit) rest else none

/-- The float of a literal. Digits that no longer fit the significand only move the point. -/
def floatValue? (literal : NumberLiteral) : Option Float := do
  let (whole, dropped) := appendDigits 0 literal.whole
  let (significand, unused) := appendDigits whole (literal.fraction.getD [])
  let used := (literal.fraction.getD []).length - unused.length
  let exponent : Int := (dropped.length : Int) - (used : Int)
  let magnitude ← match literal.exponent with
    | none => scaleFloat? significand.toUInt64 exponent
    | some (negative, digits) =>
      match exponentValue? 0 digits with
      | some value =>
        scaleFloat? significand.toUInt64 (if negative then exponent - value else exponent + value)
      | none => if significand = 0 ∨ negative then some 0.0 else none
  return if literal.negative then -magnitude else magnitude

/-- The number of a literal. It is an integer when it is written as one and fits. -/
def numberValue? (literal : NumberLiteral) : Option Number :=
  let (significand, dropped) := appendDigits 0 literal.whole
  if dropped.isEmpty && literal.fraction.isNone && literal.exponent.isNone &&
      (!literal.negative || (0 < significand && significand ≤ Nat.pow 2 63)) then
    some (if literal.negative then .negative significand else .natural significand)
  else (floatValue? literal).map .float

mutual

/-- Containers around the deepest leaf. -/
def depth : Tree → Nat
  | .array items => depthItems items + 1
  | .object fields => depthFields fields + 1
  | _ => 0

def depthItems : List Tree → Nat
  | [] => 0
  | item :: rest => max (depth item) (depthItems rest)

def depthFields : List (List StringUnit × Tree) → Nat
  | [] => 0
  | (_, value) :: rest => max (depth value) (depthFields rest)

end

mutual

/-- The value of a tree, whatever its depth. A repeated key keeps its first place and its last
value. -/
def value? : Tree → Option Json
  | .null => some .null
  | .bool value => some (.bool value)
  | .number literal => (numberValue? literal).map .number
  | .string units => (stringText? units).map .string
  | .array items => (itemValues? items).map .array
  | .object fields => (fieldValues? fields).map fun values =>
      .object (values.foldl (fun done field => setField field.1 field.2 done) [])

def itemValues? : List Tree → Option (List Json)
  | [] => some []
  | item :: rest => do
    let value ← value? item
    let values ← itemValues? rest
    return value :: values

def fieldValues? : List (List StringUnit × Tree) → Option (List (String × Json))
  | [] => some []
  | (key, item) :: rest => do
    let name ← stringText? key
    let value ← value? item
    let values ← fieldValues? rest
    return (name, value) :: values

end

/-- Containers may be nested less deep than this. -/
def depthLimit : Nat := 128

end Tree

/-- Reads a JSON text. -/
def ofString? (text : String) : Option Json := do
  let tree ← Tree.ofString? text
  if tree.depth < Tree.depthLimit then tree.value? else none

end SvServer.Json
