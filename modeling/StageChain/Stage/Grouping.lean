import StageChain.Stage.Literal
import StageChain.Stage.Reference
import StageChain.Stage.Rows

/-!
# Group stages

A group has a key and accumulators, each an output field, an operator and an expression.
-/

namespace StageChain.Grouping

/-- The accumulator operators, without their dollar sign. -/
def accumulators : List String :=
  ["sum", "avg", "min", "max", "first", "last", "push", "addToSet", "count"]

/-- The group key: an object as it is, otherwise a reference to the named field, or null. -/
def key : Value → Value
  | .null => .null
  | .object entries => .object entries
  | value =>
    let name := Reference.unmarked (Text.trim value.display)
    if name.isEmpty then .null else .text (Reference.ofName name)

/-- The argument of an accumulator: a reference as it is, any other value typed. -/
def argument (value : Value) : Except Text.OverlongNumeral Value :=
  match value with
  | .text text => if Reference.isMarked text then .ok value else Literal.coerce value
  | _ => Literal.coerce value

/-- The entry that an accumulator gives. -/
def entry (index : Nat) (row : Entries Value) : Except Refusal (Option (String × Value)) :=
  let output := Rows.textOf row "field"
  let operator := Rows.orElse (Rows.textOf row "operator") "sum"
  let expression := Value.field row "expression"
  if !accumulators.contains operator then .error (.invalid (.unknownAccumulator index operator))
  else if operator = "count" then
    .ok (if output.isEmpty then none else some (output, .object [("$count", .object [])]))
  else if output.isEmpty || expression.isBlank then .ok none
  else if output = "_id" then .error (.invalid (.groupKeyTaken index))
  else
    (Rows.typed (argument expression)).map fun argument =>
      some (output, .object [("$" ++ operator, argument)])

/-- Compiles a group. -/
def compile (config : Value) : Except Refusal CompiledStage := do
  let settings ← Rows.checked (Rows.settings config)
  let rows ← Rows.checked (Rows.rows settings "accumulators")
  let entries ← Rows.gather entry 0 rows [("_id", key (Value.field settings "_id"))]
  .ok ⟨"$group", .object entries⟩

end StageChain.Grouping
