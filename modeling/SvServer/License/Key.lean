/-!
The checksum of license keys. Only the decimal digits of a key count: the cube of their sum, the
logarithm of their product and their exclusive or are folded together and must give a fixed value.
-/

namespace SvServer.License

/-- The value a valid key folds to. -/
def checksumTarget : Nat := 0x59E

/-- Every part of the checksum is taken modulo this. -/
def checksumModulus : Nat := 16384

/-- The decimal digits of a key, in order; digits of other scripts do not count. -/
def digits (key : String) : List Nat :=
  (key.toList.filter Char.isDigit).map fun c => c.toNat - '0'.toNat

/-- The product of digits as a double, which may become infinite. -/
def digitProduct (digits : List Nat) : Float :=
  digits.foldl (fun product digit => product * Float.ofNat digit) 1.0

/-- The checksum of digits; none once the cube of their sum leaves 64 bits. -/
def checksum? (digits : List Nat) : Option Nat :=
  let sum := digits.foldl (· + ·) 0
  let cube := sum * sum * sum
  if Nat.pow 2 63 ≤ cube then none
  else
    let logarithm := (digitProduct digits + 1.0).log.toInt64.toInt.toNat
    let parity := digits.foldl (· ^^^ ·) 0
    some ((cube % checksumModulus) ^^^ (logarithm % checksumModulus) ^^^
      (parity * 4 % checksumModulus))

/-- Whether a key is accepted. -/
def isValidKey (key : String) : Bool := checksum? (digits key) == some checksumTarget

end SvServer.License
