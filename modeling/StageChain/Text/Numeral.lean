import StageChain.Text.Blank
import StageChain.Text.Digit

/-!
# Numerals

Two grammars of numbers in text. `scanDecimal` reads the plain one: a sign, ASCII digits with at
most one point, and an exponent. The liberal one, of `liberalInt` and `plainForm`, also allows
surrounding blanks, decimal digits of every script and single underscores between digits; it is
reduced to the plain grammar by `plainForm`.

An integer is read from at most `maxDigits` digits, leading zeros included. A numeral with more of
them is an `OverlongNumeral`, which is a fault of its own: the text is not taken for anything else.
Numbers that are read as doubles have no such limit.

The same limit holds where an integer is written, `exceedsDigits`. `integerChars` gives the digits of
every integer, and what writes whole values, `Json.writeWithin`, asks for the limit first. Messages
and names do not ask for it: the integers in them come from a graph, which is read within the limit.
-/

namespace StageChain.Text

/-- The number written by a list of ASCII digits. -/
def digitsValue (digits : List Char) : Nat :=
  digits.foldl (fun value c => 10 * value + (c.toNat - 48)) 0

/-- Takes a sign off the front; the flag says that it is a minus. -/
def splitSign : List Char → Bool × List Char
  | '-' :: rest => (true, rest)
  | '+' :: rest => (false, rest)
  | chars => (false, chars)

/-- Whether the characters are one or more ASCII digits. -/
def isDigits (chars : List Char) : Bool :=
  !chars.isEmpty && chars.all isAsciiDigit

/-- Whether the characters are an optional sign and one or more ASCII digits. -/
def isIntegerChars (chars : List Char) : Bool := isDigits (splitSign chars).2

/-- Whether a text is an optional sign followed by one or more ASCII digits. -/
def isIntegerText (text : String) : Bool := isIntegerChars text.toList

/-- The integer with the given sign and size. -/
def signed (negative : Bool) (size : Nat) : Int := if negative then -(size : Int) else size

/-- The decimal digits of an integer, after a minus if it is negative. -/
def integerChars (n : Int) : List Char :=
  if n < 0 then '-' :: Nat.toDigits 10 n.natAbs else Nat.toDigits 10 n.natAbs

/-- The integer denoted by a sign and ASCII digits. -/
def integerValue (chars : List Char) : Int :=
  signed (splitSign chars).1 (digitsValue (splitSign chars).2)

/-- The most digits that an integer is read from. -/
def maxDigits : Nat := 4300

/-- Whether an integer has more digits than are written. -/
def exceedsDigits (n : Int) : Bool := maxDigits < (Nat.toDigits 10 n.natAbs).length

/-- The part of a message that names the limit. -/
def limitMessage : String :=
  "Exceeds the limit (" ++ String.ofList (Nat.toDigits 10 maxDigits) ++
    " digits) for integer string conversion"

/-- The part of a message that says how the limit is changed. -/
def limitHint : String := "; use sys.set_int_max_str_digits() to increase the limit"

/-- An integer numeral with more digits than are read. -/
structure OverlongNumeral where
  digits : Nat
deriving DecidableEq

/-- What is said about an overlong numeral. -/
def OverlongNumeral.message (numeral : OverlongNumeral) : String :=
  limitMessage ++ ": value has " ++ String.ofList (Nat.toDigits 10 numeral.digits) ++ " digits" ++
    limitHint

/-- The integer written by ASCII digits with a sign, unless there are too many of them. -/
def readDigits (negative : Bool) (digits : List Char) : Except OverlongNumeral Int :=
  if digits.length ≤ maxDigits then .ok (signed negative (digitsValue digits))
  else .error ⟨digits.length⟩

/-- The integer denoted by a sign and ASCII digits, unless the digits are too many. -/
def readInteger (chars : List Char) : Except OverlongNumeral Int :=
  readDigits (splitSign chars).1 (splitSign chars).2

/-- A numeral read exactly: `digits · 10 ^ exponent` with a sign. -/
structure DecimalNumeral where
  negative : Bool
  digits : Nat
  exponent : Int
deriving DecidableEq

/-- The power of ten named by the part of a numeral after its digits: nothing, or an `e` of either
case, a sign and digits. -/
def exponentPart? : List Char → Option Int
  | [] => some 0
  | mark :: rest =>
    if (mark = 'e' ∨ mark = 'E') ∧ isIntegerChars rest then some (integerValue rest) else none

/-- The digits after the point and what follows them; no point means no such digits. -/
def fractionPart : List Char → List Char × List Char
  | '.' :: rest => (rest.takeWhile isAsciiDigit, rest.dropWhile isAsciiDigit)
  | chars => ([], chars)

/-- Reads a whole numeral: a sign, digits with an optional point among, before or after them, and
an optional exponent. -/
def scanDecimal (chars : List Char) : Option DecimalNumeral :=
  let unsigned := (splitSign chars).2
  let whole := unsigned.takeWhile isAsciiDigit
  let (fraction, rest) := fractionPart (unsigned.dropWhile isAsciiDigit)
  if whole.isEmpty && fraction.isEmpty then none
  else (exponentPart? rest).map fun power =>
    { negative := (splitSign chars).1
      digits := digitsValue (whole ++ fraction)
      exponent := power - fraction.length }

/-- Whether a character is skipped around a liberal numeral: the ASCII blanks other than the
separator controls, and every blank beyond ASCII. -/
def isNumeralBlank (c : Char) : Bool :=
  isBlank c && !(28 ≤ c.toNat && c.toNat ≤ 31)

/-- The ASCII form of a digit of any script; any other character is kept. -/
def plainDigit (c : Char) : Char :=
  match decimalDigit? c with
  | some value => Char.ofNat (48 + value)
  | none => c

/-- Removes single underscores that stand between two digits; any other underscore is refused.
The flag says that the character before was a digit. -/
def dropUnderscores (afterDigit : Bool) : List Char → Option (List Char)
  | [] => some []
  | '_' :: next :: rest =>
    if afterDigit && isAsciiDigit next then (dropUnderscores true rest).map (next :: ·) else none
  | c :: rest =>
    if c = '_' then none else (dropUnderscores (isAsciiDigit c) rest).map (c :: ·)

/-- The plain form of a liberal numeral: no surrounding blanks, ASCII digits, no underscores. -/
def plainForm (text : String) : Option (List Char) :=
  dropUnderscores false
    ((dropEndWhile isNumeralBlank (text.toList.dropWhile isNumeralBlank)).map plainDigit)

/-- Why a text gives no integer. -/
inductive IntegerFault where
  /-- It is no numeral. -/
  | notNumeral
  /-- It has too many digits. -/
  | overlong (numeral : OverlongNumeral)
deriving DecidableEq

/-- Whether a character can stand among the digits of a liberal numeral. -/
def isDigitMark (c : Char) : Bool := isAsciiDigit c || c == '_'

/-- The integer denoted by a liberal numeral. The digits are counted before what follows them is
looked at. -/
def liberalInt (text : String) : Except IntegerFault Int :=
  let (negative, unsigned) := splitSign ((text.toList.dropWhile isNumeralBlank).map plainDigit)
  match dropUnderscores false (unsigned.takeWhile isDigitMark) with
  | none | some [] => .error .notNumeral
  | some digits => do
    let n ← (readDigits negative digits).mapError .overlong
    if (unsigned.dropWhile isDigitMark).all isNumeralBlank then .ok n else .error .notNumeral

/-- The integer denoted by a liberal numeral, if the text is one that is read. -/
def liberalInt? (text : String) : Option Int := (liberalInt text).toOption

end StageChain.Text
