import StageChain.Stage.Literal
import StageChain.Stage.Rows

/-!
# Limit and skip stages

Both take one amount: an integer from zero to the greatest 64-bit integer, given as an integer, as a
whole double or as text. A text with more digits than are read is refused as overlong.
-/

namespace StageChain.Amount

/-- Checks the range of an amount. -/
def inRange (key : String) (n : Int) : Except StageFault Int :=
  if n < 0 then .error (.notAmount key (some (String.ofList (Text.integerChars n))))
  else if Literal.int64Max < n then .error (.amountTooLarge key)
  else .ok n

/-- The integer that a value gives. -/
def integerOf (key : String) : Value → Except Refusal Int
  | .null => .error (.invalid (.missing key))
  | .text text =>
    if text.isEmpty then .error (.invalid (.missing key))
    else
      let chars := Text.trimChars text.toList
      if Text.isIntegerChars chars then Rows.typed (Text.readInteger chars)
      else .error (.invalid (.notAmount key (some ("'" ++ text ++ "'"))))
  | .float x =>
    match x.toInt? with
    | some n => .ok n
    | none => .error (.invalid (.notAmount key none))
  | .int n => .ok n
  | _ => .error (.invalid (.notAmount key none))

/-- Compiles a stage that takes the amount under a key. -/
def compile (key : String) (config : Value) : Except Refusal CompiledStage := do
  let settings ← Rows.checked (Rows.settings config)
  let n ← integerOf key (Value.field settings key)
  let amount ← Rows.checked (inRange key n)
  .ok ⟨"$" ++ key, .int amount⟩

end StageChain.Amount
