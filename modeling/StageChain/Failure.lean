import StageChain.Value.Basic

/-!
# Reported failures

What a compilation or a run reports: a graph that is not a chain, a parameter that is not valid, a
stage that the data source refused, or another failure. `Failure.text` is the message that users
see and `Failure.toValue` the record of a report.
-/

namespace StageChain

/-- A failure of a compilation or a run. -/
inductive Failure where
  /-- The graph is not a single chain. -/
  | structural (kind message : String) (nodeIds : List String)
  /-- A stage parameter is missing or not valid. -/
  | validation (field message : String) (nodeId : Option String)
  /-- The data source refused the stages up to a node. -/
  | execution (nodeId message : String)
  /-- Any other failure. -/
  | other (message : String)
deriving DecidableEq

namespace Failure

/-- The group that a failure belongs to. -/
def category : Failure → String
  | structural .. => "structural"
  | validation .. => "validation"
  | execution .. => "runtime"
  | other _ => "pipeline"

/-- The message that users see; a validation message is preceded by its field, if it has one. -/
def text : Failure → String
  | structural _ message _ => message
  | validation field message _ => if field.isEmpty then message else field ++ ": " ++ message
  | execution _ message => message
  | other message => message

/-- The node that a failure is attributed to. -/
def nodeId? : Failure → Option String
  | validation _ _ nodeId => nodeId
  | execution nodeId _ => some nodeId
  | _ => none

/-- The entries that only some failures have. -/
def details : Failure → Entries Value
  | structural kind _ nodeIds => [("kind", .text kind), ("node_ids", .texts nodeIds)]
  | validation field _ nodeId => [("node_id", .textOrNull nodeId), ("field", .text field)]
  | execution nodeId _ => [("node_id", .text nodeId)]
  | other _ => []

/-- The record of a failure in a report. -/
def toValue (failure : Failure) : Value :=
  .object (("category", .text failure.category) :: ("message", .text failure.text) ::
    failure.details)

end Failure

end StageChain
