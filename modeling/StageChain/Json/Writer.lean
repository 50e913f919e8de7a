import StageChain.Double.Text
import StageChain.Text.Hex
import StageChain.Value.Basic

/-!
# Writing JSON

`Json.write` gives the JSON text of a value in a `Style`: on one line or one item per line, with or
without characters beyond ASCII. Doubles are written as `Double.text`, and the three numbers that
are not finite as the words `NaN`, `Infinity` and `-Infinity`.

Not every value has that text. An integer with too many digits is refused, and in strict JSON so is
a double that is not finite: `WriteFault`. `Json.writeWithin` gives the text or the fault of the
first number that is refused. `extended` replaces the doubles that are not finite by objects.
-/

namespace StageChain

/-- Why a number is not written. -/
inductive WriteFault where
  /-- An integer has more digits than are written. -/
  | overlong
  /-- Strict JSON has no text for a double that is not finite. -/
  | nonFinite (number : Double)
deriving DecidableEq

namespace WriteFault

/-- What a fault says. -/
def message : WriteFault → String
  | overlong => Text.limitMessage ++ Text.limitHint
  | nonFinite number => "Out of range float values are not JSON compliant: " ++ number.text

/-- The fault of a number; the flag says that JSON is strict. -/
def ofLeaf? (strict : Bool) : Value → Option WriteFault
  | .int n => if Text.exceedsDigits n then some overlong else none
  | .float x => if strict && !x.isFinite then some (nonFinite x) else none
  | _ => none

/-- The fault of the first number in a value that is refused. -/
def find? (strict : Bool) (value : Value) : Option WriteFault :=
  value.leaves.findSome? (ofLeaf? strict)

end WriteFault

end StageChain

namespace StageChain.Json

/-- How a JSON text is laid out. -/
structure Style where
  /-- Whether every item stands on a line of its own. -/
  indented : Bool
  /-- Whether characters beyond printable ASCII are escaped. -/
  ascii : Bool

/-- One line, all characters. -/
def inline : Style := ⟨false, false⟩

/-- One item per line, all characters. -/
def indented : Style := ⟨true, false⟩

/-- One item per line, ASCII only. -/
def indentedAscii : Style := ⟨true, true⟩

/-- A UTF-16 code unit as an escape. -/
def escapeUnit (unit : Nat) : List Char := '\\' :: 'u' :: Text.hexFixed 4 unit

/-- A character as one escape, or as two when it needs a surrogate pair. -/
def escapeCodePoint (n : Nat) : List Char :=
  if n < 0x10000 then escapeUnit n
  else escapeUnit (0xD800 + (n - 0x10000) / 0x400) ++ escapeUnit (0xDC00 + (n - 0x10000) % 0x400)

/-- How one character is written inside a JSON text literal. -/
def writeChar (ascii : Bool) (c : Char) : List Char :=
  if c = '"' ∨ c = '\\' then ['\\', c]
  else if c = '\n' then ['\\', 'n']
  else if c = '\r' then ['\\', 'r']
  else if c = '\t' then ['\\', 't']
  else if c = '\x08' then ['\\', 'b']
  else if c = '\x0c' then ['\\', 'f']
  else if c.toNat < 32 then escapeUnit c.toNat
  else if ascii && 126 < c.toNat then escapeCodePoint c.toNat
  else [c]

/-- A text literal. -/
def writeText (ascii : Bool) (text : String) : List Char :=
  '"' :: text.toList.flatMap (writeChar ascii) ++ ['"']

/-- A double: its shortest text, or a word if it is not finite. -/
def writeDouble : Double → List Char
  | .nan => "NaN".toList
  | .infinite negative => Double.signedText negative "Infinity".toList
  | x => x.chars

/-- The break between a bracket and an item, or between items after the comma. -/
def Style.lineBreak (style : Style) (depth : Nat) : List Char :=
  if style.indented then '\n' :: List.replicate (2 * depth) ' ' else []

/-- What separates two items. -/
def Style.separator (style : Style) (depth : Nat) : List Char :=
  if style.indented then ',' :: style.lineBreak depth else [',', ' ']

mutual

/-- The JSON text of a value that starts at a depth of nesting. -/
def writeAt (style : Style) (depth : Nat) : Value → List Char
  | .null => "null".toList
  | .bool b => if b then "true".toList else "false".toList
  | .int n => Text.integerChars n
  | .float x => writeDouble x
  | .text s => writeText style.ascii s
  | .list [] => ['[', ']']
  | .list (item :: rest) =>
    '[' :: style.lineBreak (depth + 1) ++ writeAt style (depth + 1) item ++
      writeItems style (depth + 1) rest ++ style.lineBreak depth ++ [']']
  | .object [] => ['\x7b', '\x7d']
  | .object ((key, value) :: rest) =>
    '\x7b' :: style.lineBreak (depth + 1) ++ writeText style.ascii key ++ [':', ' '] ++
      writeAt style (depth + 1) value ++ writeEntries style (depth + 1) rest ++
      style.lineBreak depth ++ ['\x7d']

/-- The items after the first, each after a separator. -/
def writeItems (style : Style) (depth : Nat) : List Value → List Char
  | [] => []
  | item :: rest =>
    style.separator depth ++ writeAt style depth item ++ writeItems style depth rest

/-- The entries after the first, each after a separator. -/
def writeEntries (style : Style) (depth : Nat) : List (String × Value) → List Char
  | [] => []
  | (key, value) :: rest =>
    style.separator depth ++ writeText style.ascii key ++ [':', ' '] ++
      writeAt style depth value ++ writeEntries style depth rest

end

/-- The JSON text of a value, with all digits of its integers. -/
def write (style : Style) (value : Value) : String := String.ofList (writeAt style 0 value)

/-- The JSON text of a value, unless a number in it is refused. -/
def writeWithin (strict : Bool) (style : Style) (value : Value) : Except WriteFault String :=
  match WriteFault.find? strict value with
  | some fault => .error fault
  | none => .ok (write style value)

/-- The object that stands for a double that is not finite; a finite one stays as it is. -/
def extendedDouble : Double → Value
  | .nan => .object [("$numberDouble", .text "NaN")]
  | .infinite negative =>
    .object [("$numberDouble", .text (if negative then "-Infinity" else "Infinity"))]
  | x => .float x

mutual

/-- Replaces every double that is not finite by its object. -/
def extended : Value → Value
  | .float x => extendedDouble x
  | .list items => .list (extendedItems items)
  | .object entries => .object (extendedEntries entries)
  | value => value

/-- Replaces the doubles that are not finite in the values of a list. -/
def extendedItems : List Value → List Value
  | [] => []
  | item :: rest => extended item :: extendedItems rest

/-- Replaces the doubles that are not finite in the values of entries. -/
def extendedEntries : List (String × Value) → List (String × Value)
  | [] => []
  | (key, value) :: rest => (key, extended value) :: extendedEntries rest

end

end StageChain.Json
