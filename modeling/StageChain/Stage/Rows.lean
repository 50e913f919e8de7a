import StageChain.Stage.Basic
import StageChain.Text.Blank
import StageChain.Value.Display

/-!
# Reading stage configurations

A configuration is an object whose entries are texts, flags or lists of rows. `Rows.settings` and
`Rows.rows` check those shapes, `Rows.textOf` reads a text, and `Rows.gather` runs over rows that
each give one entry of the result, nothing, or a refusal.
-/

namespace StageChain.Rows

/-- The entries of a configuration; null stands for none. -/
def settings : Value → Except StageFault (Entries Value)
  | .null => .ok []
  | .object entries => .ok entries
  | value => .error (.configNotObject value.kindName)

/-- Checks that the values are objects, counting from an index. -/
def objects (key : String) : (index : Nat) → List Value → Except StageFault (List (Entries Value))
  | _, [] => .ok []
  | index, .object row :: rest => (objects key (index + 1) rest).map (row :: ·)
  | index, _ :: _ => .error (.rowNotObject key index)

/-- The rows held by a value; null stands for none. -/
def rowsOf (key : String) : Value → Except StageFault (List (Entries Value))
  | .null => .ok []
  | .list items => objects key 0 items
  | _ => .error (.rowsNotList key)

/-- The rows under a key. -/
def rows (config : Entries Value) (key : String) : Except StageFault (List (Entries Value)) :=
  rowsOf key (Value.field config key)

/-- The trimmed text of a value; null has none. -/
def nameOf : Value → String
  | .null => ""
  | value => Text.trim value.display

/-- The trimmed text under a key. -/
def textOf (row : Entries Value) (key : String) : String := nameOf (Value.field row key)

/-- The trimmed text under a key; a value that counts as nothing given has none. -/
def givenText (config : Entries Value) (key : String) : String :=
  match (Value.field config key).given? with
  | some value => Text.trim value.display
  | none => ""

/-- A text, or another one if it is empty. -/
def orElse (text default : String) : String := if text.isEmpty then default else text

/-- The outcome of a configuration that may be invalid but is never untouched. -/
def checked {α : Type} : Except StageFault α → Except Refusal α := Except.mapError .invalid

/-- The outcome of reading a numeral in a configuration. -/
def typed {α : Type} : Except Text.OverlongNumeral α → Except Refusal α :=
  Except.mapError .overlong

/-- Runs over rows from an index, inserting the entry that each one gives; the first refusal ends
the run. -/
def gather {ρ : Type} (entry : Nat → ρ → Except Refusal (Option (String × Value))) :
    (index : Nat) → List ρ → Entries Value → Except Refusal (Entries Value)
  | _, [], result => .ok result
  | index, row :: rest, result => do
    match ← entry index row with
    | some (key, value) => gather entry (index + 1) rest (Entries.insert key value result)
    | none => gather entry (index + 1) rest result

/-- The stage with the gathered entries; none at all means that nothing has been filled in. -/
def stageOfEntries (operator : String) (entries : Entries Value) : Except Refusal CompiledStage :=
  if entries.isEmpty then .error .untouched else .ok ⟨operator, .object entries⟩

end StageChain.Rows
