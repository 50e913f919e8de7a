import StageChain.Json.Writer

/-!
# Python literals

`PythonLiteral.write` gives a value as a Python expression, one item per line with a comma after
each. Doubles that are not finite are written as calls of `float`. A value with an integer that has
too many digits has no expression: `PythonLiteral.writeWithin`.
-/

namespace StageChain.PythonLiteral

/-- The blanks before an item at a depth. -/
def margin (depth : Nat) : List Char := List.replicate (2 * depth) ' '

/-- A double. -/
def writeDouble (x : Double) : List Char :=
  if x.isFinite then x.chars else "float(\"".toList ++ x.chars ++ "\")".toList

mutual

/-- The expression of a value that starts at a depth of nesting. -/
def writeAt (depth : Nat) : Value → List Char
  | .null => "None".toList
  | .bool b => if b then "True".toList else "False".toList
  | .int n => Text.integerChars n
  | .float x => writeDouble x
  | .text s => Json.writeText false s
  | .list [] => ['[', ']']
  | .list (item :: rest) =>
    ['[', '\n'] ++ writeItems (depth + 1) (item :: rest) ++ margin depth ++ [']']
  | .object [] => ['\x7b', '\x7d']
  | .object (entry :: rest) =>
    ['\x7b', '\n'] ++ writeEntries (depth + 1) (entry :: rest) ++ margin depth ++ ['\x7d']

/-- Items, each on a line with a comma. -/
def writeItems (depth : Nat) : List Value → List Char
  | [] => []
  | item :: rest => margin depth ++ writeAt depth item ++ [',', '\n'] ++ writeItems depth rest

/-- Entries, each on a line with a comma. -/
def writeEntries (depth : Nat) : List (String × Value) → List Char
  | [] => []
  | (key, value) :: rest =>
    margin depth ++ Json.writeText false key ++ [':', ' '] ++ writeAt depth value ++
      [',', '\n'] ++ writeEntries depth rest

end

/-- The expression of a value, with all digits of its integers. -/
def write (value : Value) : String := String.ofList (writeAt 0 value)

/-- The expression of a value, unless an integer in it is refused. -/
def writeWithin (value : Value) : Except WriteFault String :=
  match WriteFault.find? false value with
  | some fault => .error fault
  | none => .ok (write value)

end StageChain.PythonLiteral
