import StageChain.Stage.Literal
import StageChain.Stage.Rows

/-!
# Filter stages

A filter is a list of conditions, each a field, a way to compare and a value. Conditions without a
field or a value are left out. Later conditions on a field replace earlier ones.
-/

namespace StageChain.Filter

/-- Other spellings of the comparisons. -/
def aliases : Entries String := [
  ("eq", "equals"), ("ne", "not-equals"), ("gt", "greater-than"), ("gte", "greater-or-equal"),
  ("lt", "less-than"), ("lte", "less-or-equal"), ("nin", "not-in")]

/-- The operators of the comparisons other than equality. -/
def operators : Entries String := [
  ("not-equals", "$ne"), ("greater-than", "$gt"), ("greater-or-equal", "$gte"),
  ("less-than", "$lt"), ("less-or-equal", "$lte"), ("in", "$in"), ("not-in", "$nin"),
  ("regex", "$regex"), ("exists", "$exists")]

/-- The comparison named by a text: lower case, an alias resolved, equality if it is empty. -/
def comparisonName (text : String) : String :=
  let name := Rows.orElse (Text.lower text) "equals"
  (aliases.lookup name).getD name

/-- The predicate that a comparison makes of a typed value, unless the comparison is unknown. -/
def predicate? (comparison : String) : Option (Value → Value) :=
  if comparison = "equals" then some id
  else (operators.lookup comparison).map fun operator value => .object [(operator, value)]

/-- The entry that a condition gives. -/
def entry (index : Nat) (row : Entries Value) : Except Refusal (Option (String × Value)) :=
  let field := Rows.textOf row "field"
  let value := Value.field row "value"
  if field.isEmpty || value.isBlank then .ok none
  else
    let comparison := comparisonName (Rows.textOf row "operator")
    match predicate? comparison with
    | some predicate =>
      (Rows.typed (Literal.coerce value)).map fun typed => some (field, predicate typed)
    | none => .error (.invalid (.unknownComparison index comparison))

/-- The conditions of a configuration, which may also be the bare list of them. -/
def conditions : Value → Except StageFault (List (Entries Value))
  | .list items => Rows.rowsOf "conditions" (.list items)
  | config => do Rows.rows (← Rows.settings config) "conditions"

/-- Compiles a filter. -/
def compile (config : Value) : Except Refusal CompiledStage := do
  let rows ← Rows.checked (conditions config)
  let predicates ← Rows.gather entry 0 rows []
  Rows.stageOfEntries "$match" predicates

end StageChain.Filter
