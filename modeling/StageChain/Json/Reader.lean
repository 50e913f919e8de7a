import StageChain.Double.Rounding
import StageChain.Text.Hex
import StageChain.Value.Basic

/-!
# Reading JSON

`Json.read` reads a whole JSON text in a `Dialect`. Numbers with a point or an exponent are doubles
and all others whole numbers; a dialect can take the words `NaN`, `Infinity` and `-Infinity` for
doubles too. A key that comes again keeps its first place and takes the last value. An escape of
half a surrogate pair that stands alone is read as the replacement character.

A text fails at the first place where it is not JSON or where a whole number has more digits than
the dialect reads.
-/

namespace StageChain.Json

/-- What is read beyond or short of strict JSON. -/
structure Dialect where
  /-- Whether the words for the doubles that are not finite are read. -/
  nonFinite : Bool
  /-- Whether whole numbers with too many digits are refused. -/
  limited : Bool

namespace Dialect

/-- JSON as it is defined. -/
def strict : Dialect := ⟨false, false⟩

/-- JSON with words for the doubles that are not finite. -/
def extended : Dialect := ⟨true, false⟩

/-- What files are read as. -/
def lenient : Dialect := ⟨true, true⟩

/-- The words that are values. -/
def words (dialect : Dialect) : List (String × Value) :=
  [("null", .null), ("true", .bool true), ("false", .bool false)] ++
    if dialect.nonFinite then
      [("NaN", .float .nan), ("Infinity", .float (.infinite false)),
        ("-Infinity", .float (.infinite true))]
    else []

end Dialect

/-- Why a text is not read. -/
inductive Fault where
  /-- It is not JSON. -/
  | malformed
  /-- A whole number has more digits than are read. -/
  | overlong (numeral : Text.OverlongNumeral)
deriving DecidableEq

/-- What a part of the text gives; where there is none, the text is not JSON. -/
def expect {α : Type} : Option α → Except Fault α
  | some part => .ok part
  | none => .error .malformed

/-- The four characters allowed between tokens. -/
def isSpace (c : Char) : Bool := c == ' ' || c == '\t' || c == '\n' || c == '\r'

/-- Drops the spaces in front. -/
def skipSpace (chars : List Char) : List Char := chars.dropWhile isSpace

/-- The number written by four hexadecimal digits. -/
def hexUnit? (a b c d : Char) : Option Nat := do
  let a ← Text.hexValue? a
  let b ← Text.hexValue? b
  let c ← Text.hexValue? c
  let d ← Text.hexValue? d
  some (((a * 16 + b) * 16 + c) * 16 + d)

/-- The character that an escape of one letter stands for. -/
def escaped? (letter : Char) : Option Char :=
  match letter with
  | '"' => some '"'
  | '\\' => some '\\'
  | '/' => some '/'
  | 'b' => some '\x08'
  | 'f' => some '\x0c'
  | 'n' => some '\n'
  | 'r' => some '\r'
  | 't' => some '\t'
  | _ => none

/-- Reads up to the closing quote. The result is a list of code points in which a surrogate pair
written as two escapes is still two numbers. -/
def readUnits : List Char → Option (List Nat × List Char)
  | [] => none
  | '"' :: rest => some ([], rest)
  | '\\' :: 'u' :: a :: b :: c :: d :: rest => do
    let unit ← hexUnit? a b c d
    let (units, rest) ← readUnits rest
    some (unit :: units, rest)
  | '\\' :: letter :: rest => do
    let c ← escaped? letter
    let (units, rest) ← readUnits rest
    some (c.toNat :: units, rest)
  | c :: rest =>
    if c.toNat < 32 then none
    else (readUnits rest).map fun (units, rest) => (c.toNat :: units, rest)

/-- The character of a code point; a lone surrogate has none and is replaced. -/
def charOfUnit (unit : Nat) : Char :=
  if 0xD800 ≤ unit ∧ unit ≤ 0xDFFF then Char.ofNat 0xFFFD else Char.ofNat unit

/-- Whether two numbers are the halves of a surrogate pair. -/
def isPair (high low : Nat) : Bool :=
  0xD800 ≤ high && high ≤ 0xDBFF && 0xDC00 ≤ low && low ≤ 0xDFFF

/-- Joins surrogate pairs into characters. -/
def joinPairs : List Nat → List Char
  | [] => []
  | high :: low :: rest =>
    if isPair high low then
      Char.ofNat (0x10000 + (high - 0xD800) * 0x400 + (low - 0xDC00)) :: joinPairs rest
    else charOfUnit high :: joinPairs (low :: rest)
  | [unit] => [charOfUnit unit]

/-- Reads a text literal after its opening quote. -/
def readText (chars : List Char) : Option (String × List Char) :=
  (readUnits chars).map fun (units, rest) => (String.ofList (joinPairs units), rest)

/-- Takes the whole part of a number off the front: a zero, or digits that do not start with
one. -/
def readWhole : List Char → Option (List Char × List Char)
  | '0' :: rest => some (['0'], rest)
  | chars =>
    match chars.takeWhile Text.isAsciiDigit with
    | [] => none
    | digits => some (digits, chars.dropWhile Text.isAsciiDigit)

/-- Takes a point and the digits after it off the front, if there is at least one digit. -/
def readFraction (chars : List Char) : Option (List Char × List Char) :=
  match chars with
  | '.' :: rest =>
    match rest.takeWhile Text.isAsciiDigit with
    | [] => none
    | digits => some (digits, rest.dropWhile Text.isAsciiDigit)
  | _ => none

/-- Takes an exponent off the front, if it has at least one digit. -/
def readExponent (chars : List Char) : Option (Int × List Char) :=
  match chars with
  | mark :: rest =>
    if mark = 'e' ∨ mark = 'E' then
      let (negative, unsigned) := Text.splitSign rest
      match unsigned.takeWhile Text.isAsciiDigit with
      | [] => none
      | digits =>
        some (Text.signed negative (Text.digitsValue digits), unsigned.dropWhile Text.isAsciiDigit)
    else none
  | [] => none

/-- The whole number written by digits with a sign. -/
def wholeNumber (dialect : Dialect) (negative : Bool) (digits : List Char) : Except Fault Int :=
  if dialect.limited then (Text.readDigits negative digits).mapError .overlong
  else .ok (Text.signed negative (Text.digitsValue digits))

/-- Reads a number without its sign. -/
def readUnsigned (dialect : Dialect) (negative : Bool) (chars : List Char) :
    Except Fault (Value × List Char) := do
  let (whole, afterWhole) ← expect (readWhole chars)
  let fraction := readFraction afterWhole
  let (places, afterPlaces) := fraction.getD ([], afterWhole)
  let exponent := readExponent afterPlaces
  let (power, rest) := exponent.getD (0, afterPlaces)
  if fraction.isSome || exponent.isSome then
    let x := Double.ofDecimal negative (Text.digitsValue (whole ++ places)) (power - places.length)
    .ok (.float x, rest)
  else
    let n ← wholeNumber dialect negative whole
    .ok (.int n, rest)

/-- Reads a number. -/
def readNumber (dialect : Dialect) : List Char → Except Fault (Value × List Char)
  | '-' :: rest => readUnsigned dialect true rest
  | chars => readUnsigned dialect false chars

/-- Takes a word off the front, if one of a list is there. -/
def readWord? (words : List (String × Value)) (chars : List Char) : Option (Value × List Char) :=
  words.findSome? fun (word, value) => (word.toList.isPrefixOf? chars).map fun rest => (value, rest)

mutual

/-- Reads a value at the front of the characters. -/
def readValue (dialect : Dialect) : (fuel : Nat) → List Char → Except Fault (Value × List Char)
  | 0, _ => .error .malformed
  | fuel + 1, chars =>
    match readWord? dialect.words chars with
    | some found => .ok found
    | none =>
      match chars with
      | '"' :: rest => (expect (readText rest)).map fun (s, rest) => (.text s, rest)
      | '[' :: rest =>
        match skipSpace rest with
        | ']' :: rest => .ok (.list [], rest)
        | rest => (readItems dialect fuel rest).map fun (items, rest) => (.list items, rest)
      | '\x7b' :: rest =>
        match skipSpace rest with
        | '\x7d' :: rest => .ok (.object [], rest)
        | rest =>
          (readEntries dialect fuel rest).map fun (pairs, rest) =>
            (.object (Entries.collect pairs), rest)
      | chars => readNumber dialect chars

/-- Reads the items of a list that is not empty, up to the closing bracket. -/
def readItems (dialect : Dialect) :
    (fuel : Nat) → List Char → Except Fault (List Value × List Char)
  | 0, _ => .error .malformed
  | fuel + 1, chars => do
    let (item, rest) ← readValue dialect fuel chars
    match skipSpace rest with
    | ',' :: rest =>
      (readItems dialect fuel (skipSpace rest)).map fun (items, rest) => (item :: items, rest)
    | ']' :: rest => .ok ([item], rest)
    | _ => .error .malformed

/-- Reads the entries of an object that is not empty, up to the closing brace. -/
def readEntries (dialect : Dialect) :
    (fuel : Nat) → List Char → Except Fault (List (String × Value) × List Char)
  | 0, _ => .error .malformed
  | fuel + 1, chars =>
    match chars with
    | '"' :: rest => do
      let (key, rest) ← expect (readText rest)
      match skipSpace rest with
      | ':' :: rest => do
        let (value, rest) ← readValue dialect fuel (skipSpace rest)
        match skipSpace rest with
        | ',' :: rest =>
          (readEntries dialect fuel (skipSpace rest)).map fun (pairs, rest) =>
            ((key, value) :: pairs, rest)
        | '\x7d' :: rest => .ok ([(key, value)], rest)
        | _ => .error .malformed
      | _ => .error .malformed
    | _ => .error .malformed

end

/-- Reads a whole JSON text. -/
def read (dialect : Dialect) (text : String) : Except Fault Value := do
  let chars := text.toList
  let (value, rest) ← readValue dialect (2 * chars.length + 2) (skipSpace chars)
  if (skipSpace rest).isEmpty then .ok value else .error .malformed

end StageChain.Json
