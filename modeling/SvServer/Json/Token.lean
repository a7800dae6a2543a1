/-!
The tokens of JSON text. Numbers and strings stay as they were written here; whether a number fits,
and whether escaped surrogates pair up, is decided when a token is given a value.
-/

namespace SvServer.Json

/-- A number as it is written. -/
structure NumberLiteral where
  negative : Bool
  /-- Digits before the point -/
  whole : List Nat
  /-- Digits after the point; `none` without a point -/
  fraction : Option (List Nat)
  /-- Sign (true for negative) and digits of the exponent -/
  exponent : Option (Bool × List Nat)
deriving Repr, DecidableEq

/-- One unit of a string: a character, or half of a surrogate pair written as an escape. -/
inductive StringUnit where
  | char (c : Char)
  | surrogate (value : Nat)
deriving Repr, DecidableEq

/-- A token of a JSON text. -/
inductive Token where
  | openBracket
  | closeBracket
  | openBrace
  | closeBrace
  | comma
  | colon
  | null
  | bool (value : Bool)
  | number (literal : NumberLiteral)
  | string (units : List StringUnit)
deriving Repr, DecidableEq

namespace Token

/-- The four blanks of JSON. -/
def isBlank (c : Char) : Bool := c = ' ' || c = '\n' || c = '\t' || c = '\r'

/-- The value of a hexadecimal digit. -/
def hexDigit? (c : Char) : Option Nat :=
  if c.isDigit then some (c.toNat - '0'.toNat)
  else if 'a' ≤ c ∧ c ≤ 'f' then some (c.toNat - 'a'.toNat + 10)
  else if 'A' ≤ c ∧ c ≤ 'F' then some (c.toNat - 'A'.toNat + 10)
  else none

/-- The unit that four hexadecimal digits name. -/
def escapedUnit (value : Nat) : StringUnit :=
  if 0xD800 ≤ value ∧ value ≤ 0xDFFF then .surrogate value else .char (Char.ofNat value)

/-- The character that a one-letter escape names. -/
def simpleEscape? (c : Char) : Option Char :=
  match c with
  | '"' => some '"'
  | '\\' => some '\\'
  | '/' => some '/'
  | 'b' => some '\x08'
  | 'f' => some '\x0c'
  | 'n' => some '\n'
  | 'r' => some '\r'
  | 't' => some '\t'
  | _ => none

/-- The units of a string whose opening quote was read, and how many characters they and the closing
quote take. -/
def stringUnits? : List Char → Option (List StringUnit × Nat)
  | [] => none
  | '\\' :: 'u' :: a :: b :: c :: d :: rest => do
    let high := (← hexDigit? a) * 16 + (← hexDigit? b)
    let low := (← hexDigit? c) * 16 + (← hexDigit? d)
    let value := high * 256 + low
    let (units, length) ← stringUnits? rest
    return (escapedUnit value :: units, length + 6)
  | '\\' :: e :: rest => do
    let char ← simpleEscape? e
    let (units, length) ← stringUnits? rest
    return (.char char :: units, length + 2)
  | c :: rest =>
    if c = '"' then some ([], 1)
    else if c = '\\' ∨ c.toNat < 0x20 then none
    else do
      let (units, length) ← stringUnits? rest
      return (.char c :: units, length + 1)

/-- The digits at the start of a text, as values. -/
def leadingDigits (text : List Char) : List Nat :=
  (text.takeWhile Char.isDigit).map fun c => c.toNat - '0'.toNat

/-- The exponent at the start of a text, and its length. Text that begins no exponent has the empty
one; an `e` without digits after it is refused. -/
def exponentPart? (text : List Char) : Option (Option (Bool × List Nat) × Nat) :=
  match text with
  | e :: rest =>
    if e = 'e' ∨ e = 'E' then
      let (negative, signLength) : Bool × Nat :=
        match rest.head? with
        | some '-' => (true, 1)
        | some '+' => (false, 1)
        | _ => (false, 0)
      match leadingDigits (rest.drop signLength) with
      | [] => none
      | digits => some (some (negative, digits), 1 + signLength + digits.length)
    else some (none, 0)
  | [] => some (none, 0)

/-- The fraction at the start of a text, and its length. -/
def fractionPart? (text : List Char) : Option (Option (List Nat) × Nat) :=
  match text with
  | '.' :: rest =>
    match leadingDigits rest with
    | [] => none
    | digits => some (some digits, 1 + digits.length)
  | _ => some (none, 0)

/-- A number and its length. A leading zero stands alone. -/
def number? (text : List Char) : Option (NumberLiteral × Nat) := do
  let (negative, signLength) : Bool × Nat := if text.head? = some '-' then (true, 1) else (false, 0)
  let afterSign := text.drop signLength
  let whole := match leadingDigits afterSign with
    | 0 :: _ => [0]
    | digits => digits
  if whole.isEmpty then none
  else
    let afterWhole := afterSign.drop whole.length
    let (fraction, fractionLength) ← fractionPart? afterWhole
    let (exponent, exponentLength) ← exponentPart? (afterWhole.drop fractionLength)
    return (⟨negative, whole, fraction, exponent⟩,
      signLength + whole.length + fractionLength + exponentLength)

/-- The token that begins with `c`, and how many of the characters after `c` belong to it. -/
def classify? (c : Char) (rest : List Char) : Option (Token × Nat) :=
  match c with
  | '[' => some (.openBracket, 0)
  | ']' => some (.closeBracket, 0)
  | '\x7b' => some (.openBrace, 0)
  | '\x7d' => some (.closeBrace, 0)
  | ',' => some (.comma, 0)
  | ':' => some (.colon, 0)
  | '"' => (stringUnits? rest).map fun (units, length) => (.string units, length)
  | 't' => if "rue".toList.isPrefixOf rest then some (.bool true, 3) else none
  | 'f' => if "alse".toList.isPrefixOf rest then some (.bool false, 4) else none
  | 'n' => if "ull".toList.isPrefixOf rest then some (.null, 3) else none
  | _ => (number? (c :: rest)).map fun (literal, length) => (.number literal, length - 1)

/-- The tokens of a text, unless some part of it is no token. -/
def ofChars? : List Char → Option (List Token)
  | [] => some []
  | c :: rest =>
    if isBlank c then ofChars? rest
    else match classify? c rest with
      | none => none
      | some (token, length) => (ofChars? (rest.drop length)).map (token :: ·)
termination_by text => text.length
decreasing_by all_goals (simp only [List.length_drop, List.length_cons]; omega)

end Token

end SvServer.Json
