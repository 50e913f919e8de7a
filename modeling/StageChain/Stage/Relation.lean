import StageChain.Stage.Reference
import StageChain.Stage.Rows

/-!
# Stages about arrays and other collections

`Unwind` makes a document of each element of an array, `Join` adds the matching documents of another
collection, and `Tally` counts documents.
-/

namespace StageChain

namespace Unwind

/-- Whether a value is a flag: a boolean or a number that equals one, or nothing given. -/
def isFlag : Value → Bool
  | .null => true
  | .bool _ => true
  | .int n => n == 0 || n == 1
  | .float x => x.toInt? == some 0 || x.toInt? == some 1
  | .text text => text.isEmpty
  | _ => false

/-- The entries of an unwind with a path. -/
def params (settings : Entries Value) (path : String) : Except StageFault (Entries Value) :=
  let preserve := Value.field settings "preserveNullAndEmptyArrays"
  let index := Rows.givenText settings "includeArrayIndex"
  if !isFlag preserve then .error .preserveNotBoolean
  else if Reference.isMarked index then .error .indexIsReference
  else
    .ok ([("path", .text (Reference.ofName path))] ++
      (if preserve.isVoid then [] else [("preserveNullAndEmptyArrays", .bool true)]) ++
      (if index.isEmpty then [] else [("includeArrayIndex", .text index)]))

/-- Compiles an unwind. -/
def compile (config : Value) : Except Refusal CompiledStage := do
  let settings ← Rows.checked (Rows.settings config)
  let path := Rows.givenText settings "path"
  if path = "" ∨ path = "$" then .error .untouched
  else
    let entries ← Rows.checked (params settings path)
    .ok ⟨"$unwind", .object entries⟩

end Unwind

namespace Join

/-- The entries that a join has to give. -/
def required : List String := ["from", "localField", "foreignField"]

/-- Compiles a join. -/
def compile (config : Value) : Except Refusal CompiledStage := do
  let settings ← Rows.checked (Rows.settings config)
  let given := required.map fun key => (key, Rows.textOf settings key)
  if given.all (·.2.isEmpty) then .error .untouched
  else
    match given.find? (·.2.isEmpty) with
    | some (key, _) => .error (.invalid (.missing key))
    | none =>
      .ok ⟨"$lookup", .object (Entries.mapValues Value.text given ++
        [("as", .text (Rows.orElse (Rows.textOf settings "as") "joined"))])⟩

end Join

namespace Tally

/-- Checks the output field of a count. -/
def checkName (name : String) : Except StageFault String :=
  if Reference.isMarked name then .error .countIsReference
  else if name.toList.contains '.' then .error .countIsPath
  else .ok name

/-- Compiles a count. -/
def compile (config : Value) : Except Refusal CompiledStage := do
  let settings ← Rows.checked (Rows.settings config)
  let name ← Rows.checked (checkName (Rows.orElse (Rows.textOf settings "count") "total"))
  .ok ⟨"$count", .text name⟩

end Tally

end StageChain
