import StageChain.Text.Numeral
import StageChain.Value.Basic

/-!
# Compiled stages and refusals

A stage configuration compiles to a `CompiledStage`, an operator with its parameters, or is refused:
it is `untouched` and contributes no stage, it is `invalid` with a `StageFault`, or it holds an
`overlong` numeral. A stage fault has a field that it is about and a message; an overlong numeral is
not put down to any field.
-/

namespace StageChain

/-- An operator with its parameters. -/
structure CompiledStage where
  operator : String
  params : Value
deriving DecidableEq, Inhabited

/-- The document that a data source runs: the parameters under the operator. -/
def CompiledStage.document (stage : CompiledStage) : Value :=
  .object [(stage.operator, stage.params)]

/-- What is wrong with a stage configuration. -/
inductive StageFault where
  /-- No stage has this type. -/
  | unknownType (type : String)
  /-- The configuration is a value of another kind than an object. -/
  | configNotObject (kind : String)
  /-- The entry that should hold rows is not a list. -/
  | rowsNotList (key : String)
  /-- A row is not an object. -/
  | rowNotObject (key : String) (index : Nat)
  /-- A condition compares in an unknown way. -/
  | unknownComparison (index : Nat) (operator : String)
  /-- An accumulator is unknown. -/
  | unknownAccumulator (index : Nat) (operator : String)
  /-- An accumulator writes to the group key. -/
  | groupKeyTaken (index : Nat)
  /-- A sort direction is a boolean. -/
  | booleanDirection (index : Nat)
  /-- A sort direction is unknown. -/
  | unknownDirection (index : Nat) (direction : String)
  /-- A computed field has no expression. -/
  | noExpression (index : Nat)
  /-- A projection mode is unknown. -/
  | unknownMode (index : Nat) (mode : String)
  /-- The name of an added field is a reference. -/
  | nameIsReference (name : String)
  /-- The output field of a count is a reference. -/
  | countIsReference
  /-- The output field of a count is a path. -/
  | countIsPath
  /-- An entry has to be given. -/
  | missing (key : String)
  /-- The flag of an unwind is not a boolean. -/
  | preserveNotBoolean
  /-- The index field of an unwind is a reference. -/
  | indexIsReference
  /-- An amount is no integer, or a negative one; what is shown of it, if anything. -/
  | notAmount (key : String) (shown : Option String)
  /-- An amount is beyond the 64-bit range. -/
  | amountTooLarge (key : String)
deriving DecidableEq

namespace StageFault

/-- A natural number in decimal. -/
def decimal (n : Nat) : String := String.ofList (Nat.toDigits 10 n)

/-- The name of one row of a list. -/
def rowName (key : String) (index : Nat) : String := key ++ "[" ++ decimal index ++ "]"

/-- The field that a fault is about. -/
def field : StageFault → String
  | unknownType _ => "stageType"
  | configNotObject _ => "config"
  | rowsNotList key => key
  | rowNotObject key index => rowName key index
  | unknownComparison index _ => rowName "conditions" index ++ ".operator"
  | unknownAccumulator index _ => rowName "accumulators" index ++ ".operator"
  | groupKeyTaken index => rowName "accumulators" index ++ ".field"
  | booleanDirection index => rowName "fields" index ++ ".direction"
  | unknownDirection index _ => rowName "fields" index ++ ".direction"
  | noExpression index => rowName "fields" index ++ ".value"
  | unknownMode index _ => rowName "fields" index ++ ".mode"
  | nameIsReference name => "fields." ++ name
  | countIsReference => "count"
  | countIsPath => "count"
  | missing key => key
  | preserveNotBoolean => "preserveNullAndEmptyArrays"
  | indexIsReference => "includeArrayIndex"
  | notAmount key _ => key
  | amountTooLarge key => key

/-- What a fault says. -/
def message : StageFault → String
  | unknownType type => "unknown stage type '" ++ type ++ "'"
  | configNotObject kind => "expected an object, got " ++ kind
  | rowsNotList _ => "expected a list"
  | rowNotObject _ _ => "expected an object"
  | unknownComparison _ operator => "unknown operator '" ++ operator ++ "'"
  | unknownAccumulator _ operator => "unknown accumulator '" ++ operator ++ "'"
  | groupKeyTaken _ => "'_id' is the group key"
  | booleanDirection _ => "expected ascending or descending"
  | unknownDirection _ direction => "expected ascending or descending, got '" ++ direction ++ "'"
  | noExpression _ => "computed field needs an expression"
  | unknownMode _ mode => "expected include, exclude or computed, got '" ++ mode ++ "'"
  | nameIsReference _ => "field names cannot start with '$'"
  | countIsReference => "output field cannot start with '$'"
  | countIsPath => "output field cannot contain '.'"
  | missing _ => "is required"
  | preserveNotBoolean => "must be a boolean"
  | indexIsReference => "must be a field name, not a reference"
  | notAmount _ none => "must be a non-negative integer"
  | notAmount _ (some shown) => "must be a non-negative integer, got " ++ shown
  | amountTooLarge _ => "must be at most 9223372036854775807"

end StageFault

/-- Why a configuration gives no stage. -/
inductive Refusal where
  /-- Nothing has been filled in yet. -/
  | untouched
  /-- Something is wrong. -/
  | invalid (fault : StageFault)
  /-- An integer has more digits than are read. -/
  | overlong (numeral : Text.OverlongNumeral)
deriving DecidableEq

end StageChain
