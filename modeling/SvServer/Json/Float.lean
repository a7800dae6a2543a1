import SvServer.Decimal.Shortest

/-!
Floats in JSON text. Reading scales the significand by a power of ten, one rounding a step; writing
gives the shortest digits that read back under correct rounding.
-/

namespace SvServer.Json

/-- Digits are written out up to sixteen places before the point, and down to five zeros after it;
other magnitudes carry an exponent, always with its sign. A whole number keeps `.0`. -/
def layout (d : Decimal.Digits) : String :=
  let digits := toString d.digits
  let length : Int := digits.length
  let point := length + d.exponent
  let zeros (n : Int) : String := String.ofList (List.replicate n.toNat '0')
  let chars := digits.toList
  if 0 ≤ d.exponent ∧ point ≤ 16 then digits ++ zeros d.exponent ++ ".0"
  else if 0 < point ∧ point ≤ 16 then
    String.ofList (chars.take point.toNat) ++ "." ++ String.ofList (chars.drop point.toNat)
  else if -5 < point ∧ point ≤ 0 then "0." ++ zeros (-point) ++ digits
  else
    let exponent := (if 0 < point then "e+" else "e") ++ toString (point - 1)
    match chars with
    | [] => exponent
    | [digit] => String.ofList [digit] ++ exponent
    | digit :: more => String.ofList [digit] ++ "." ++ String.ofList more ++ exponent

/-- The text of a float. JSON has no text for infinities, which become `null`. -/
def floatText (x : Float) : String :=
  let bits := x.toBits
  let sign := if bits >>> 63 = 1 then "-" else ""
  let magnitude := bits &&& 0x7FFFFFFFFFFFFFFF
  if 0x7FF0000000000000 ≤ magnitude then "null"
  else if magnitude = 0 then sign ++ "0.0"
  else sign ++ layout (Decimal.shortest (Decimal.Binary.ofBits magnitude))

/-- A power of ten up to 10^308. -/
def powerOfTen (n : Nat) : Float := Float.ofScientific 1 false n

/-- Divides by 10^308 while the exponent is out of the table's reach. Two such steps leave nothing
of any significand, so the walk ends early. -/
def scaleDown : Nat → Float → Nat → Float
  | 0, value, _ => value
  | steps + 1, value, magnitude =>
    if magnitude ≤ 308 then value / powerOfTen magnitude
    else if value == 0.0 then value
    else scaleDown steps (value / powerOfTen 308) (magnitude - 308)

/-- `significand * 10 ^ exponent`, or `none` where that is too large for a float. -/
def scaleFloat? (significand : UInt64) (exponent : Int) : Option Float :=
  let value := significand.toFloat
  if 0 ≤ exponent then
    if exponent ≤ 308 then
      let result := value * powerOfTen exponent.toNat
      if result.isInf then none else some result
    else if value == 0.0 then some value
    else none
  else some (scaleDown (exponent.natAbs / 308 + 1) value exponent.natAbs)

end SvServer.Json
