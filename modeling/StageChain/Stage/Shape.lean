import StageChain.Stage.Literal
import StageChain.Stage.Reference
import StageChain.Stage.Rows

/-!
# Stages that shape documents

`Projection` includes, excludes or computes fields, and `Addition` adds computed fields.
-/

namespace StageChain

namespace Projection

/-- Whether a value is no expression: null, or a text of blanks. -/
def isMissing : Value → Bool
  | .null => true
  | .text text => (Text.trim text).isEmpty
  | _ => false

/-- The entry that a row gives. -/
def entry (index : Nat) (row : Entries Value) : Except Refusal (Option (String × Value)) :=
  let name := Rows.textOf row "name"
  if name.isEmpty then .ok none
  else
    let mode := Rows.orElse (Text.lower (Rows.textOf row "mode")) "include"
    let value := Value.field row "value"
    if mode = "include" then .ok (some (name, .int 1))
    else if mode = "exclude" then .ok (some (name, .int 0))
    else if mode = "computed" then
      if isMissing value then .error (.invalid (.noExpression index))
      else (Rows.typed (Literal.expression value)).map fun typed => some (name, typed)
    else .error (.invalid (.unknownMode index mode))

/-- The projection with the gathered fields; without any it keeps the identifier only. -/
def complete (fields : Entries Value) : Entries Value :=
  if fields.isEmpty then [("_id", .int 1)] else fields

/-- Compiles a projection. -/
def compile (config : Value) : Except Refusal CompiledStage := do
  let settings ← Rows.checked (Rows.settings config)
  let rows ← Rows.checked (Rows.rows settings "fields")
  let fields ← Rows.gather entry 0 rows []
  .ok ⟨"$project", .object (complete fields)⟩

end Projection

namespace Addition

/-- The entry that a named value gives. -/
def entry (pair : String × Value) : Except Refusal (Option (String × Value)) :=
  if pair.1.isEmpty then .ok none
  else if Reference.isMarked pair.1 then .error (.invalid (.nameIsReference pair.1))
  else if pair.2.isBlank then .ok none
  else (Rows.typed (Literal.expression pair.2)).map fun typed => some (pair.1, typed)

/-- The named values of a configuration, given as an object or as rows. -/
def pairs (settings : Entries Value) : Except StageFault (List (String × Value)) :=
  match Value.field settings "fields" with
  | .object entries => .ok (entries.map fun pair => (Text.trim pair.1, pair.2))
  | value => (Rows.rowsOf "fields" value).map fun rows =>
      rows.map fun row => (Rows.textOf row "name", Value.field row "value")

/-- Compiles an addition of fields. -/
def compile (config : Value) : Except Refusal CompiledStage := do
  let settings ← Rows.checked (Rows.settings config)
  let pairs ← Rows.checked (pairs settings)
  let fields ← Rows.gather (fun _ => entry) 0 pairs []
  Rows.stageOfEntries "$addFields" fields

end Addition

end StageChain
