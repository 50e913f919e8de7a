import StageChain.Double.Rounding
import StageChain.Stage.Reference
import StageChain.Text.LetterCase
import StageChain.Value.Basic

/-!
# Typed literals

Users type values as text. `Literal.number` reads a number, `Literal.coerce` turns a typed value
into a number, a boolean or the text itself, and `Literal.expression` does so for a computed field,
where a text that starts with a dollar sign refers to another field. All of them fail on an integer
with more digits than are read.
-/

namespace StageChain.Literal

/-- The least stored integer. -/
def int64Min : Int := -9223372036854775808

/-- The greatest stored integer. -/
def int64Max : Int := 9223372036854775807

/-- The value of a numeral that is not kept as an integer: a double, unless it overflows. -/
def double? (chars : List Char) : Option Value :=
  (Text.scanDecimal chars).bind fun numeral =>
    let x := Double.ofNumeral numeral
    if x.isFinite then some (.float x) else none

/-- Whether an integer is kept as one. -/
def inInt64 (n : Int) : Prop := int64Min ≤ n ∧ n ≤ int64Max

instance : DecidablePred inInt64 := fun _ => inferInstanceAs (Decidable (_ ∧ _))

/-- The value of trimmed characters, if they are a numeral: an integer within 64 bits, else a finite
double. -/
def numberOfChars (chars : List Char) : Except Text.OverlongNumeral (Option Value) :=
  if Text.isIntegerChars chars then
    (Text.readInteger chars).map fun n => if inInt64 n then some (.int n) else double? chars
  else .ok (double? chars)

/-- The number that a text denotes after trimming, if it denotes one. -/
def number (text : String) : Except Text.OverlongNumeral (Option Value) :=
  numberOfChars (Text.trimChars text.toList)

/-- The value of a text that is no number: a boolean in letters of any case, or the text itself. -/
def wordOf (text : String) : Value :=
  let lowered := Text.lower text
  if lowered = "true" then .bool true
  else if lowered = "false" then .bool false
  else .text text

/-- The typed value of a text: a number, a boolean in letters of any case, or the text itself. -/
def coerceText (text : String) : Except Text.OverlongNumeral Value :=
  (number text).map (·.getD (wordOf text))

mutual

/-- The typed value of what a user gave: texts are read, lists item by item, and everything else is
typed already. -/
def coerce : Value → Except Text.OverlongNumeral Value
  | .text text => coerceText text
  | .list items => (coerceItems items).map .list
  | value => .ok value

/-- The typed values of the items of a list. -/
def coerceItems : List Value → Except Text.OverlongNumeral (List Value)
  | [] => .ok []
  | item :: rest => do
    let first ← coerce item
    let others ← coerceItems rest
    .ok (first :: others)

end

/-- The value of a trimmed expression: a reference, one of the words `true` and `false`, a number,
or the text itself. -/
def expressionText (text : String) : Except Text.OverlongNumeral Value :=
  if Reference.isMarked text then .ok (.text text)
  else if text = "true" then .ok (.bool true)
  else if text = "false" then .ok (.bool false)
  else (number text).map (·.getD (.text text))

/-- The value of a computed field; only texts are read. -/
def expression : Value → Except Text.OverlongNumeral Value
  | .text text => expressionText (Text.trim text)
  | value => .ok value

end StageChain.Literal
