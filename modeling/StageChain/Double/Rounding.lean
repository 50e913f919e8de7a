import StageChain.Double.Basic
import StageChain.Text.Numeral

/-!
# Rounding to the nearest double

`roundQuotient` rounds a quotient to the nearest natural number, a half to the even neighbour.
`Magnitude.nearest` rounds a quotient of units to the nearest magnitude in the same way, and
`Double.ofDecimal` rounds the number that a decimal numeral denotes.
-/

namespace StageChain

/-- The natural number nearest to a quotient, the even one of two. -/
def roundQuotient (numerator denominator : Nat) : Nat :=
  let quotient := numerator / denominator
  let rest := 2 * (numerator % denominator)
  if rest < denominator then quotient
  else if rest = denominator then quotient + quotient % 2
  else quotient + 1

/-- The magnitude nearest to a quotient of units, unless it is out of range. -/
def Magnitude.nearest (numerator denominator : Nat) : Option Magnitude :=
  let scale := (numerator / denominator).log2 - 52
  let significand := roundQuotient numerator (denominator * Nat.pow 2 scale)
  if significand = Nat.pow 2 53 then Magnitude.ofParts? (Nat.pow 2 52) (scale + 1)
  else Magnitude.ofParts? significand scale

namespace Double

/-- The double nearest to a quotient of units; out of range it is an infinity. -/
def ofQuotient (negative : Bool) (numerator denominator : Nat) : Double :=
  match Magnitude.nearest numerator denominator with
  | some m => finite negative m
  | none => infinite negative

/-- How many decimal digits a natural number has. -/
def digitCount (n : Nat) : Nat := (Nat.toDigits 10 n).length

/-- The double nearest to `digits · 10 ^ exponent` with a sign. Numbers beyond `10 ^ 310` or below
`10 ^ -330` are decided by their size alone. -/
def ofDecimal (negative : Bool) (digits : Nat) (exponent : Int) : Double :=
  let magnitudeOrder : Int := exponent + digitCount digits
  if digits = 0 ∨ magnitudeOrder < -330 then finite negative .zero
  else if 310 < magnitudeOrder then infinite negative
  else if 0 ≤ exponent then
    ofQuotient negative (digits * Nat.pow 10 exponent.toNat * Magnitude.unitsPerOne) 1
  else ofQuotient negative (digits * Magnitude.unitsPerOne) (Nat.pow 10 (-exponent).toNat)

/-- The double nearest to an integer. -/
def ofInt (n : Int) : Double := ofDecimal (n < 0) n.natAbs 0

/-- The double nearest to the number that a numeral denotes. -/
def ofNumeral (numeral : Text.DecimalNumeral) : Double :=
  ofDecimal numeral.negative numeral.digits numeral.exponent

/-- The value of a word for an infinity or for not-a-number, in letters of any case. -/
def ofWord? (negative : Bool) (word : List Char) : Option Double :=
  let lowered := word.map Char.toLower
  if lowered = "inf".toList ∨ lowered = "infinity".toList then some (infinite negative)
  else if lowered = "nan".toList then some nan
  else none

/-- The double denoted by a text: a liberal numeral, or a word for a number that is not finite. -/
def ofText? (text : String) : Option Double :=
  (Text.plainForm text).bind fun chars =>
    match Text.scanDecimal chars with
    | some numeral => some (ofNumeral numeral)
    | none =>
      let (negative, word) := Text.splitSign chars
      ofWord? negative word

end Double

end StageChain
