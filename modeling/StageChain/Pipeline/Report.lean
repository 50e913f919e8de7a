import StageChain.Graph.Chain
import StageChain.Pipeline.Basic
import StageChain.Stage.Catalog

/-!
# Compiling a graph

`Graph.assemble` compiles nodes in a given order: untouched nodes are skipped, and the first invalid
one ends the assembly. `Graph.compile` lists the chain and assembles it; its `Report` holds the
order and either the pipeline or the failure. A numeral with more digits than are read ends the
compilation without a report.

The two steps are nodes of a state graph that a workflow engine runs. The engine has no part in the
model, `compile` is a plain match. It is taken to do what it is documented to do: it runs the listing
once, merges what a step returns into the state, goes on to the assembly exactly if no error was set,
and lets an exception of a step through.
-/

namespace StageChain

/-- Why nodes cannot be assembled. -/
inductive AssemblyFault where
  /-- The order names a node that is not there. -/
  | unknownNode (id : String)
  /-- The configuration of a node is not valid. -/
  | invalidNode (id : String) (fault : StageFault)
  /-- The configuration of a node holds an integer with more digits than are read. -/
  | overlong (numeral : Text.OverlongNumeral)
deriving DecidableEq

/-- The failure that reports a fault; an overlong numeral is not reported. -/
def AssemblyFault.failure : AssemblyFault → Except Text.OverlongNumeral Failure
  | unknownNode id => .ok (.other id)
  | invalidNode id fault => .ok (.validation fault.field fault.message (some id))
  | overlong numeral => .error numeral

/-- The result of compiling a graph. -/
structure Report where
  order : List String
  outcome : Except Failure Pipeline

namespace Report

/-- The pipeline, if the graph compiled. -/
def pipeline? (report : Report) : Option Pipeline :=
  match report.outcome with
  | .ok pipeline => some pipeline
  | .error _ => none

/-- The failure, if there is one. -/
def failure? (report : Report) : Option Failure :=
  match report.outcome with
  | .ok _ => none
  | .error failure => some failure

/-- Whether the graph compiled. -/
def isOk (report : Report) : Bool := report.failure?.isNone

/-- The pipeline of a report or the failure; a pipeline without stages is replaced by the empty
one. -/
def result (report : Report) : Except Failure Pipeline :=
  report.outcome.map fun pipeline => if pipeline.stages.isEmpty then .empty else pipeline

/-- The record of a report. -/
def toValue (report : Report) : Value :=
  .object [("order", .texts report.order),
    ("pipeline", (report.pipeline?.map Pipeline.toValue).getD .null),
    ("error", (report.failure?.map Failure.toValue).getD .null)]

end Report

namespace Graph

/-- Compiles the nodes of an order. -/
def assemble (graph : Graph) : List String → Except AssemblyFault Pipeline
  | [] => .ok .empty
  | id :: rest =>
    match graph.nodes.get? id with
    | none => .error (.unknownNode id)
    | some node =>
      match compileStage node.stageType node.config with
      | .ok stage =>
        (graph.assemble rest).map fun pipeline =>
          { pipeline with stages := ⟨id, stage⟩ :: pipeline.stages }
      | .error .untouched =>
        (graph.assemble rest).map fun pipeline =>
          { pipeline with skipped := id :: pipeline.skipped }
      | .error (.invalid fault) => .error (.invalidNode id fault)
      | .error (.overlong numeral) => .error (.overlong numeral)

/-- Lists the chain of a graph and assembles its stages, unless it is no chain. -/
def compile (graph : Graph) : Except Text.OverlongNumeral Report :=
  match graph.linearize with
  | .error fault => .ok ⟨[], .error fault.failure⟩
  | .ok order =>
    match graph.assemble order with
    | .ok pipeline => .ok ⟨order, .ok pipeline⟩
    | .error fault => fault.failure.map fun failure => ⟨order, .error failure⟩

/-- The pipeline of a graph, or why it has none. -/
def pipeline (graph : Graph) : Except Text.OverlongNumeral (Except Failure Pipeline) :=
  graph.compile.map Report.result

end Graph

end StageChain
