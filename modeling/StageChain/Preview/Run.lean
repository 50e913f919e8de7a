import StageChain.Failure
import StageChain.Pipeline.Basic
import StageChain.Source.ReadPair

/-!
# Runs of a pipeline

A run has a generation and one result for each prefix, up to the first that failed. A run that was
refused before it began has a failure and no results.
-/

namespace StageChain

/-- The result of running one prefix. -/
structure StageResult where
  /-- The index of the last stage of the prefix. -/
  index : Nat
  /-- The owner of the last stage. -/
  nodeId : String
  documents : List Value
  /-- The count of the whole result, if the prefix succeeded. -/
  count : Option Int
  error : Option String
  page : Int
  /-- Whether documents come after the page. -/
  hasMore : Bool
deriving DecidableEq

/-- The results of a run of some generation. -/
structure Run where
  generation : Nat
  results : List StageResult
  failure : Option Failure
deriving DecidableEq

namespace StageResult

/-- The record of a result, with the time that it took if that is given. -/
def toValue (elapsed : Option Int) (result : StageResult) : Value :=
  .object ([("index", .int result.index), ("node_id", .text result.nodeId),
      ("documents", .list result.documents), ("count", (result.count.map Value.int).getD .null)] ++
    (elapsed.map fun time => [("elapsed_ms", Value.int time)]).getD [] ++
    [("error", .textOrNull result.error), ("page", .int result.page),
      ("has_more", .bool result.hasMore)])

end StageResult

namespace Run

/-- Whether every prefix succeeded. -/
def isOk (run : Run) : Bool := run.failure.isNone

/-- The node that the failure of a run is attributed to. -/
def failedNodeId? (run : Run) : Option String := run.failure.bind Failure.nodeId?

/-- The record of a run, with the times of its results if one is given for them. -/
def toValue (elapsed : Option Int) (run : Run) : Value :=
  .object [("generation", .int run.generation),
    ("results", .list (run.results.map (StageResult.toValue elapsed))),
    ("error", (run.failure.map Failure.toValue).getD .null)]

end Run

/-- How long a stage may take, what is read of its result, and for which node. -/
structure StageRequest where
  index : Nat
  nodeId : String
  pageSize : Int
  page : Int
  timeout : Double

namespace StageRequest

/-- The result of a stage that failed. -/
def failed (request : StageRequest) (message : String) : StageResult where
  index := request.index
  nodeId := request.nodeId
  documents := []
  count := none
  error := some message
  page := request.page
  hasMore := false

/-- The result of a stage that succeeded. -/
def fetched (request : StageRequest) (documents : List Value) (count : Int) : StageResult where
  index := request.index
  nodeId := request.nodeId
  documents := documents
  count := some count
  error := none
  page := request.page
  hasMore := Paging.hasMore request.pageSize request.page documents.length count

/-- The message of a refusal; an empty one is replaced. -/
def refusalText (message : String) : String :=
  if message.isEmpty then "Stage execution failed" else message

/-- The message of a stage that took too long. -/
def timeoutText (timeout : Double) : String := "Stage timed out after " ++ timeout.brief ++ "s"

/-- What a conclusion of the two reads means for a stage: a result, or the end of the task. -/
inductive Outcome where
  | result (result : StageResult)
  | crashed (crash : Crash)
  | cancelled

/-- The outcome of a stage. -/
def outcome (request : StageRequest) : Conclusion → Outcome
  | .fetched documents count => .result (request.fetched documents count)
  | .failed (.refused message) => .result (request.failed (refusalText message))
  | .failed (.crashed crash) => .crashed crash
  | .interrupted .timedOut => .result (request.failed (timeoutText request.timeout))
  | .interrupted .cancelled => .cancelled

end StageRequest

end StageChain
