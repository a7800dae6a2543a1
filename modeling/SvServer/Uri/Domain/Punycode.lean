/-!
Labels in ASCII. A label with other characters has a written form of letters, digits and hyphens:
its ASCII characters, then numbers that say where the others go in and which they are. Each number
is a row of digits of growing weight that ends with the first digit below a threshold.
-/

namespace SvServer.Uri.Domain.Punycode

/-- The value of a digit: letters count from 0 and decimal digits follow them. -/
def digit? (c : Char) : Option Nat :=
  if 'a' ≤ c ∧ c ≤ 'z' then some (c.toNat - 'a'.toNat)
  else if '0' ≤ c ∧ c ≤ '9' then some (c.toNat - '0'.toNat + 26)
  else none

/-- The threshold at a place of a number. Places are counted in steps of 36. -/
def threshold (bias place : Nat) : Nat := min 26 (max 1 (place - bias))

/-- Divides while the number is large; each division is worth 36. -/
def reduce (number : Nat) : Nat × Nat :=
  if 455 < number then
    let (rest, worth) := reduce (number / 35)
    (rest, worth + 36)
  else (number, 0)
termination_by number

/-- The bias for the next number, from the last one and from the length of the text. -/
def adapt (number length : Nat) (isFirst : Bool) : Nat :=
  let halved := if isFirst then number / 700 else number / 2
  let (rest, worth) := reduce (halved + halved / length)
  worth + 36 * rest / (rest + 38)

/-- A label that is read digit by digit. -/
structure Reading where
  /-- What was put together so far -/
  text : List Char
  /-- The last character that was put in -/
  code : Nat := 128
  bias : Nat := 72
  /-- The position after that character, plus the number so far -/
  position : Nat := 0
  /-- The position at the start of the number -/
  start : Nat := 0
  /-- The place of the next digit and its weight -/
  place : Nat := 36
  weight : Nat := 1

/-- Numbers are kept in 32 bits. -/
def word? (n : Nat) : Option Nat := if n < UInt32.size then some n else none

/-- One more digit. With the last digit of a number a character is put in: the number counts the
positions of the text, round by round, and every round goes on to the next character. -/
def Reading.next? (reading : Reading) (c : Char) : Option Reading := do
  let digit ← digit? c
  let position ← word? (reading.position + (← word? (digit * reading.weight)))
  let limit := threshold reading.bias reading.place
  if digit < limit then
    let length := reading.text.length + 1
    let code := reading.code + position / length
    if code.isValidChar then
      let offset := position % length
      some {
        text := reading.text.take offset ++ Char.ofNat code :: reading.text.drop offset
        code
        bias := adapt (position - reading.start) length (reading.start = 0)
        position := offset + 1
        start := offset + 1 }
    else none
  else
    let weight ← word? (reading.weight * (36 - limit))
    some { reading with position, weight, place := reading.place + 36 }

/-- The ASCII characters of a written label and its numbers: the last hyphen stands between them,
unless it is the first character. -/
def split (written : List Char) : List Char × List Char :=
  let numbers := (written.reverse.takeWhile (· ≠ '-')).reverse
  match written.take (written.length - numbers.length) with
  | [] | ['-'] => ([], written)
  | ascii => (ascii.dropLast, numbers)

/-- The label that a written form stands for. -/
def decode? (written : List Char) : Option (List Char) := do
  let (ascii, numbers) := split written
  let reading ← numbers.foldlM Reading.next? { text := ascii }
  if reading.place = 36 then some reading.text else none

end SvServer.Uri.Domain.Punycode
