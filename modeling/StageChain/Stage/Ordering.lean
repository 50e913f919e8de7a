import StageChain.Stage.Rows
import StageChain.Text.LetterCase

/-!
# Sort stages

A sort is a list of fields with directions. A field that comes again takes the last direction but
keeps its place.
-/

namespace StageChain.Ordering

/-- The words for the directions. -/
def directions : Entries Int := [
  ("ascending", 1), ("asc", 1), ("1", 1), ("descending", -1), ("desc", -1), ("-1", -1)]

/-- The direction that a value names; nothing given means ascending. -/
def direction (index : Nat) : Value → Except StageFault Int
  | .null => .ok 1
  | .text "" => .ok 1
  | .bool _ => .error (.booleanDirection index)
  | value =>
    match directions.lookup (Text.lower (Text.trim value.display)) with
    | some direction => .ok direction
    | none => .error (.unknownDirection index value.display)

/-- The entry that a row gives. -/
def entry (index : Nat) (row : Entries Value) : Except Refusal (Option (String × Value)) :=
  let field := Rows.textOf row "field"
  if field.isEmpty then .ok none
  else (Rows.checked (direction index (Value.field row "direction"))).map fun direction =>
    some (field, .int direction)

/-- Compiles a sort. -/
def compile (config : Value) : Except Refusal CompiledStage := do
  let settings ← Rows.checked (Rows.settings config)
  let rows ← Rows.checked (Rows.rows settings "fields")
  let keys ← Rows.gather entry 0 rows []
  Rows.stageOfEntries "$sort" keys

end StageChain.Ordering
