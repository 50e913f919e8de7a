import StageChain.Double.Shortest

/-!
# Doubles as text

`Double.text` is the shortest text that reads back as the number: positional from `10 ^ -4` up to
`10 ^ 16`, with at least one place after the point, and with an exponent beyond. `Double.brief` has
six significant digits and no superfluous zeros.
-/

namespace StageChain

/-- How a decimal is laid out: the power of ten from which an exponent is written, and what marks a
positional number without places. -/
structure DecimalLayout where
  positionalBelow : Int
  wholeMark : List Char

namespace Decimal

/-- The significant digits, without zeros at the end. -/
def significant (d : Decimal) : List Char :=
  match Text.dropEndWhile (· == '0') (Nat.toDigits 10 d.digits) with
  | [] => ['0']
  | digits => digits

/-- The power of ten of the first significant digit; zero has the power zero. -/
def leadingPower (d : Decimal) : Int :=
  if d.digits = 0 then 0 else d.exponent + Double.digitCount d.digits - 1

/-- An exponent with its sign and at least two digits. -/
def exponentText (power : Int) : List Char :=
  let digits := Nat.toDigits 10 power.natAbs
  'e' :: (if power < 0 then '-' else '+') :: (if digits.length < 2 then '0' :: digits else digits)

/-- Digits with a point after the first `whole` ones, filled up with zeros. -/
def positional (layout : DecimalLayout) (digits : List Char) (whole : Nat) : List Char :=
  if digits.length ≤ whole then
    digits ++ List.replicate (whole - digits.length) '0' ++ layout.wholeMark
  else digits.take whole ++ '.' :: digits.drop whole

/-- The text of a decimal in a layout. -/
def render (layout : DecimalLayout) (d : Decimal) : List Char :=
  let digits := d.significant
  let power := d.leadingPower
  if -4 ≤ power ∧ power < layout.positionalBelow then
    if 0 ≤ power then positional layout digits (power.toNat + 1)
    else '0' :: '.' :: List.replicate ((-power).toNat - 1) '0' ++ digits
  else
    let places := if digits.length ≤ 1 then digits else digits.take 1 ++ '.' :: digits.drop 1
    places ++ exponentText power

end Decimal

namespace Double

/-- The layout of the text that reads back: positional below `10 ^ 16`, whole numbers end in
`.0`. -/
def fullLayout : DecimalLayout := ⟨16, ['.', '0']⟩

/-- The layout of the brief text: positional below `10 ^ 6`, whole numbers without a point. -/
def briefLayout : DecimalLayout := ⟨6, []⟩

/-- A sign in front of the text of a magnitude. -/
def signedText (negative : Bool) (chars : List Char) : List Char :=
  if negative then '-' :: chars else chars

/-- The characters of a double in a layout, with a chosen decimal for each magnitude. -/
def render (layout : DecimalLayout) (decimal : Magnitude → Decimal) : Double → List Char
  | nan => "nan".toList
  | infinite negative => signedText negative "inf".toList
  | finite negative m => signedText negative ((decimal m).render layout)

/-- The characters of the shortest text that reads back as the number. -/
def chars (x : Double) : List Char := x.render fullLayout Magnitude.shortest

/-- The shortest text that reads back as the number. -/
def text (x : Double) : String := String.ofList x.chars

/-- The number with six significant digits. -/
def brief (x : Double) : String :=
  String.ofList (x.render briefLayout (·.toSignificant 6))

end Double

end StageChain
