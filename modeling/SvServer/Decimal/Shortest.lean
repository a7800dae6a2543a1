/-!
The shortest decimal text of a binary floating-point number: the fewest digits that read back as
the same number, and of those the digits nearest to it, a tie going to the even ones. Everything is
computed on the significand and the exponent in exact natural-number arithmetic.
-/

namespace SvServer.Decimal

/-- A positive binary number `significand * 2 ^ exponent`. `narrow` marks a power of two, whose
lower neighbour is only half as far away as its upper one. -/
structure Binary where
  significand : Nat
  exponent : Int
  narrow : Bool

/-- `digits * 10 ^ exponent` -/
structure Digits where
  digits : Nat
  exponent : Int
deriving Repr, DecidableEq

/-- A quotient of natural numbers that equals `a * base ^ e`. -/
def scaled (a base : Nat) (e : Int) : Nat × Nat :=
  if 0 ≤ e then (a * Nat.pow base e.toNat, 1) else (a, Nat.pow base (-e).toNat)

/-- The power of ten at or below `num / den`. -/
def magnitude (num den : Nat) : Int :=
  if den ≤ num then ((Nat.toDigits 10 (num / den)).length : Int) - 1
  else -(((List.range 400).find? fun j => den ≤ num * Nat.pow 10 j).getD 0 : Int)

/-- The one of two neighbours that is nearer to `num / den`. Of two that are equally near, the even
one is taken. -/
def nearer (num den below above : Nat) : Nat :=
  match compare (2 * num) ((below + above) * den) with
  | .lt => below
  | .gt => above
  | .eq => if below % 2 = 0 then below else above

/-- The best decimal for `x` on the grid of multiples of `10 ^ grid`, if one of the two neighbours
of `x` on that grid reads back as `x`. -/
def nearest? (x : Binary) (grid : Int) : Option Nat :=
  let (num, den) := scaled x.significand 2 x.exponent
  let (num, den) :=
    if 0 ≤ grid then (num, den * Nat.pow 10 grid.toNat) else (num * Nat.pow 10 (-grid).toNat, den)
  let unit := num / x.significand
  let low := 4 * num - (if x.narrow then unit else 2 * unit)
  let high := 4 * num + 2 * unit
  let ends := x.significand % 2 == 0
  let inside (d : Nat) : Bool :=
    let point := 4 * d * den
    if ends then low ≤ point && point ≤ high else low < point && point < high
  let below := num / den
  let above := below + 1
  match inside below && 0 < below, inside above with
  | true, true => some (nearer num den below above)
  | true, false => some below
  | false, true => some above
  | false, false => none

/-- Removes the zeros at the end of the digits. -/
def trimZeros : Nat → Digits → Digits
  | 0, d => d
  | steps + 1, d =>
    if d.digits ≠ 0 ∧ d.digits % 10 = 0 then trimZeros steps ⟨d.digits / 10, d.exponent + 1⟩ else d

/-- The shortest digits of a positive binary number. Seventeen digits always suffice. -/
def shortest (x : Binary) : Digits :=
  let (num, den) := scaled x.significand 2 x.exponent
  let top := magnitude num den
  let found := (List.range 17).findSome? fun (n : Nat) =>
    let grid := top - (n : Int)
    (nearest? x grid).map fun d => (⟨d, grid⟩ : Digits)
  trimZeros 20 (found.getD ⟨0, 0⟩)

/-- Splits a finite positive float into significand and exponent. -/
def Binary.ofBits (bits : UInt64) : Binary :=
  let fraction := (bits &&& 0xFFFFFFFFFFFFF).toNat
  let biased := ((bits >>> 52) &&& 0x7FF).toNat
  if biased = 0 then ⟨fraction, -1074, false⟩
  else ⟨fraction + Nat.pow 2 52, (biased : Int) - 1075, fraction = 0 && 1 < biased⟩

end SvServer.Decimal
