/-!
# Doubles

A 64-bit binary floating-point number as an exact object: a sign and a magnitude in units of
`2 ^ -1074`, the smallest positive double, or an infinity, or the one not-a-number. The proof
fields of `Magnitude` make the form unique, so equal numbers of one sign are equal as data.
-/

namespace StageChain

/-- The magnitude `significand · 2 ^ scale` units of `2 ^ -1074`. -/
structure Magnitude where
  significand : Nat
  scale : Nat
  significand_lt : significand < Nat.pow 2 53
  normal : scale = 0 ∨ Nat.pow 2 52 ≤ significand
  scale_le : scale ≤ 2045
deriving DecidableEq

namespace Magnitude

/-- How many units of `2 ^ -1074` make the number one. -/
def unitsPerOne : Nat := Nat.pow 2 1074

/-- The magnitude in units. -/
def units (m : Magnitude) : Nat := m.significand * Nat.pow 2 m.scale

/-- The magnitude of zero. -/
def zero : Magnitude := ⟨0, 0, by decide, .inl rfl, by decide⟩

/-- The magnitude with the given parts, if they are in the unique form. -/
def ofParts? (significand scale : Nat) : Option Magnitude :=
  if h : significand < Nat.pow 2 53 ∧ (scale = 0 ∨ Nat.pow 2 52 ≤ significand) ∧ scale ≤ 2045 then
    some ⟨significand, scale, h.1, h.2.1, h.2.2⟩
  else none

/-- Whether the magnitude is a whole number. -/
def isWhole (m : Magnitude) : Bool := m.units % unitsPerOne == 0

/-- The whole part of the magnitude. -/
def wholePart (m : Magnitude) : Nat := m.units / unitsPerOne

end Magnitude

/-- A 64-bit floating-point number. -/
inductive Double where
  | nan
  | infinite (negative : Bool)
  | finite (negative : Bool) (magnitude : Magnitude)
deriving DecidableEq

namespace Double

instance : Inhabited Double := ⟨nan⟩

/-- The positive zero. -/
def zero : Double := finite false .zero

/-- Whether the number is neither an infinity nor not-a-number. -/
def isFinite : Double → Bool
  | finite .. => true
  | _ => false

/-- Whether the number is a zero of either sign. -/
def isZero : Double → Bool
  | finite _ m => m.significand == 0
  | _ => false

/-- Whether the number is finite and whole. -/
def isWhole : Double → Bool
  | finite _ m => m.isWhole
  | _ => false

/-- Whether the number is at most zero; not-a-number is not. -/
def isAtMostZero : Double → Bool
  | nan => false
  | infinite negative => negative
  | finite negative m => negative || m.significand == 0

/-- The number without its fractional part, if it is finite. -/
def truncate? : Double → Option Int
  | finite negative m => some (if negative then -(m.wholePart : Int) else m.wholePart)
  | _ => none

/-- The integer that the number is, if it is one. -/
def toInt? (x : Double) : Option Int := if x.isWhole then x.truncate? else none

end Double

end StageChain
