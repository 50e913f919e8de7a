import StageChain.Double.Rounding

/-!
# Shortest decimals

`Magnitude.shortest` is the decimal with the fewest digits that reads back as the magnitude, and
of those the nearest to it. Each count of digits has two candidates, the neighbours of the exact
value, and the exact value itself is the last resort. `toSignificant` rounds to a fixed count of
digits instead.
-/

namespace StageChain

/-- The decimal number `digits · 10 ^ exponent`. -/
structure Decimal where
  digits : Nat
  exponent : Int
deriving DecidableEq

namespace Magnitude

/-- The exact value of a magnitude as a decimal. -/
def exactDecimal (m : Magnitude) : Decimal :=
  if 1074 ≤ m.scale then ⟨m.significand * Nat.pow 2 (m.scale - 1074), 0⟩
  else ⟨m.significand * Nat.pow 5 (1074 - m.scale), -(1074 - m.scale : Nat)⟩

/-- The neighbours of an exact decimal among those with `count` digits, the nearer one first; of two
at the same distance the even one is first. -/
def candidates (exact : Decimal) (length count : Nat) : List Decimal :=
  let unit := Nat.pow 10 (length - count)
  let exponent : Int := exact.exponent + (length - count : Nat)
  let below : Decimal := ⟨exact.digits / unit, exponent⟩
  let above : Decimal := ⟨exact.digits / unit + 1, exponent⟩
  let rest := 2 * (exact.digits % unit)
  if rest < unit ∨ (rest = unit ∧ below.digits % 2 = 0) then [below, above] else [above, below]

/-- Whether a decimal is rounded to the magnitude. -/
def isReadFrom (m : Magnitude) (decimal : Decimal) : Bool :=
  Double.ofDecimal false decimal.digits decimal.exponent == .finite false m

/-- The decimal with the fewest digits that reads back as the magnitude. -/
def shortest (m : Magnitude) : Decimal :=
  let exact := m.exactDecimal
  let length := Double.digitCount exact.digits
  let tried := (List.range 17).flatMap fun index => candidates exact length (index + 1)
  (tried.find? m.isReadFrom).getD exact

/-- The decimal with `count` digits nearest to the magnitude, the even one of two. -/
def toSignificant (m : Magnitude) (count : Nat) : Decimal :=
  let exact := m.exactDecimal
  let dropped := Double.digitCount exact.digits - count
  ⟨roundQuotient exact.digits (Nat.pow 10 dropped), exact.exponent + dropped⟩

end Magnitude

end StageChain
