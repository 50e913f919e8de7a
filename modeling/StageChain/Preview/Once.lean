import StageChain.Pipeline.Report
import StageChain.Preview.Orchestrator

/-!
# Running a graph once

`Graph.preview` compiles a graph and runs it to the end on a fresh orchestrator; a graph that is not
valid gives a run without results.
-/

namespace StageChain

/-- Runs a graph on an orchestrator and waits for the end. -/
def Graph.preview (graph : Graph) (o : Orchestrator) (page : Int) :
    Except RunFault (Orchestrator × Option Ending) := do
  let report ← graph.compile.mapError .overlong
  match report.outcome with
  | .error failure => .ok (o.reject failure, some (.finished (o.refusedRun failure)))
  | .ok pipeline =>
    let next ← o.start pipeline page
    let task := next.tasks.length - 1
    let done := next.await task
    .ok (done, done.ending? task)

end StageChain
