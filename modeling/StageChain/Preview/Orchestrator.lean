import StageChain.Preview.Run

/-!
# The orchestrator of runs

The orchestrator runs every prefix of a pipeline in order against one collection. Each run is a task
with a generation of its own; starting a run, or recording a refused one, cancels the task that is
held and takes the next generation. Results of an older generation are dropped.

`Orchestrator.step?` is one atomic step of a task: starting the two reads of the next prefix, or
taking in how they ended. It is `none` where the task has ended or waits at a barrier. Where the
time limit runs out at once, as `Orchestrator.isInstant` says, the step after the start of the reads
ends them. `Orchestrator.settle` lets all tasks go on until none can.

Three things are taken for granted of the loop that gives tasks their turns. Reads that are started
begin in the same step; `SessionLoop` has the turn in between. A task that is cancelled ends at
once; in the loop it does so in its next turn, and if the reads that it waits for have ended by then
it takes in their outcome first, which is dropped if the task is of an older generation. And the
limits that run out at once are those below `2 ^ -15` seconds, whatever the machine.
-/

namespace StageChain

/-- How a task ends. -/
inductive Ending where
  /-- With a run that was accepted. -/
  | finished (run : Run)
  /-- With a run that was out of date. -/
  | discarded
  /-- By being cancelled. -/
  | cancelled
  /-- By a crash of a read. -/
  | crashed (crash : Crash)
deriving DecidableEq

/-- The two reads of a prefix: what they wait for and how they end. -/
structure ReadsInProgress where
  barrier : Barrier
  page : Except ReadFault (List Value)
  count : Except ReadFault Value

/-- Where a task stands. -/
inductive Phase where
  /-- The reads of the next prefix are still to be started. -/
  | ready
  /-- The reads of the next prefix have been started. -/
  | reading (reads : ReadsInProgress)
  /-- The task has ended. -/
  | ended (ending : Ending)

/-- A run in the making. -/
structure Task where
  generation : Nat
  pipeline : Pipeline
  page : Int
  /-- The results so far. -/
  results : List StageResult
  phase : Phase

namespace Task

/-- Whether the task has ended. -/
def isDone (task : Task) : Bool :=
  match task.phase with
  | .ended _ => true
  | _ => false

/-- How the task ended, if it has. -/
def ending? (task : Task) : Option Ending :=
  match task.phase with
  | .ended ending => some ending
  | _ => none

/-- Ends the task, unless it has ended. -/
def cancel (task : Task) : Task :=
  if task.isDone then task else { task with phase := .ended .cancelled }

/-- The run with the results so far. -/
def run (task : Task) (failure : Option Failure) : Run :=
  ⟨task.generation, task.results, failure⟩

end Task

/-- A result that listeners are told of. -/
structure RunEvent where
  generation : Nat
  result : StageResult
deriving DecidableEq

/-- Why a run is not started. -/
inductive RunFault where
  | timeoutNotPositive
  | pageTooSmall
  /-- The graph holds an integer with more digits than are read. -/
  | overlong (numeral : Text.OverlongNumeral)
deriving DecidableEq

/-- What a fault says. -/
def RunFault.message : RunFault → String
  | timeoutNotPositive => "stage_timeout must be positive"
  | pageTooSmall => "page must be at least 1"
  | overlong numeral => numeral.message

/-- The state of the orchestrator, with the history of its reads and events. -/
structure Orchestrator where
  collection : String
  pageSize : Int
  timeout : Double
  source : Source
  /-- The gates that have been released. -/
  released : List String
  generation : Nat
  /-- The index of the task that is held, if any. -/
  held : Option Nat
  /-- All tasks, in the order in which they were started. -/
  tasks : List Task
  latest : Option Run
  /-- The reads that were started, in order. -/
  log : List Read
  /-- The results that listeners were told of, in order. -/
  events : List RunEvent

namespace Orchestrator

/-- An orchestrator that has not run anything. -/
def create (collection : String) (pageSize : Int) (timeout : Double) (source : Source) :
    Except RunFault Orchestrator :=
  if timeout.isAtMostZero then .error .timeoutNotPositive
  else .ok ⟨collection, pageSize, timeout, source, [], 0, none, [], none, [], []⟩

/-- Whether the task that is held is still running. -/
def inFlight (o : Orchestrator) : Bool :=
  match o.held.bind fun k => o.tasks[k]? with
  | some task => !task.isDone
  | none => false

/-- Cancels the task that is held and lets go of it. -/
def cancel (o : Orchestrator) : Orchestrator :=
  match o.held with
  | some k => { o with tasks := o.tasks.modify k Task.cancel, held := none }
  | none => o

/-- Cancels the task that is held and takes the next generation. -/
def advance (o : Orchestrator) : Orchestrator :=
  { o.cancel with generation := o.generation + 1 }

/-- Whether a run is of the current generation. -/
def isCurrent (o : Orchestrator) (run : Run) : Bool := run.generation == o.generation

/-- Offers a run, which becomes the latest one if it is of the current generation. -/
def accept (o : Orchestrator) (run : Run) : Orchestrator :=
  if o.isCurrent run then { o with latest := some run } else o

/-- Starts a run; its task is the last one. -/
def start (o : Orchestrator) (pipeline : Pipeline) (page : Int) : Except RunFault Orchestrator :=
  if page < 1 then .error .pageTooSmall
  else
    let next := o.advance
    .ok { next with
      held := some next.tasks.length
      tasks := next.tasks ++ [⟨next.generation, pipeline, page, [], .ready⟩] }

/-- The run that records a failure in the next generation. -/
def refusedRun (o : Orchestrator) (failure : Failure) : Run := ⟨o.generation + 1, [], some failure⟩

/-- Records a run that failed before it began. -/
def reject (o : Orchestrator) (failure : Failure) : Orchestrator :=
  o.advance.accept (o.refusedRun failure)

/-- Releases a gate for good. -/
def release (o : Orchestrator) (gate : String) : Orchestrator :=
  { o with released := gate :: o.released }

/-- Whether a barrier lets reads pass. -/
def isOpen (o : Orchestrator) : Barrier → Bool
  | .open => true
  | .gate name => o.released.contains name
  | .closed => false

/-- Whether the time limit runs out before reads can end: it is no number at all, or below `2 ^ -15`
seconds, which stands for the time that the loop needs to give reads a turn. -/
def isInstant (o : Orchestrator) : Bool :=
  match o.timeout with
  | .nan => true
  | .infinite negative => negative
  | .finite negative m => negative || m.units < Magnitude.unitsPerOne / Nat.pow 2 15

/-- Whether the time limit runs out at some time: one that is infinite does not. -/
def isLimited (o : Orchestrator) : Bool :=
  match o.timeout with
  | .infinite negative => negative
  | .nan | .finite _ _ => true

/-- Puts a task at an index. -/
def setTask (o : Orchestrator) (k : Nat) (task : Task) : Orchestrator :=
  { o with tasks := o.tasks.set k task }

/-- The prefix that a task runs next. -/
def nextPrefix (task : Task) : Pipeline := task.pipeline.take (task.results.length + 1)

/-- What the next result of a task is about. -/
def request (o : Orchestrator) (task : Task) : StageRequest where
  index := task.results.length
  nodeId := (nextPrefix task).nodeIds.getLast?.getD ""
  pageSize := o.pageSize
  page := task.page
  timeout := o.timeout

/-- Starts the two reads of the next prefix, the page first. -/
def startReads (o : Orchestrator) (k : Nat) (task : Task) : Orchestrator :=
  let stages := (nextPrefix task).documents
  let pageRead := Source.pageRead o.collection stages o.pageSize task.page
  let countRead := Source.countRead o.collection stages
  let reads : ReadsInProgress :=
    ⟨o.source.barrier stages, o.source.documents pageRead, o.source.total countRead⟩
  { o.setTask k { task with phase := .reading reads } with log := o.log ++ [pageRead, countRead] }

/-- Ends a task with the run of its results. -/
def finish (o : Orchestrator) (k : Nat) (task : Task) (failure : Option Failure) : Orchestrator :=
  let run := task.run failure
  let ending := if o.isCurrent run then Ending.finished run else .discarded
  (o.setTask k { task with phase := .ended ending }).accept run

/-- Adds a result to a task and tells the listeners; the run ends with a failed result and with the
last one. -/
def record (o : Orchestrator) (k : Nat) (task : Task) (result : StageResult) : Orchestrator :=
  let task := { task with results := task.results ++ [result], phase := .ready }
  let told := { o with events := o.events ++ [RunEvent.mk task.generation result] }
  match result.error with
  | some message => told.finish k task (some (.execution result.nodeId message))
  | none =>
    if task.results.length < task.pipeline.size then told.setTask k task
    else told.finish k task none

/-- Takes in how the reads of a task ended; a task of an older generation is dropped. -/
def conclude (o : Orchestrator) (k : Nat) (task : Task) (conclusion : Conclusion) : Orchestrator :=
  match (o.request task).outcome conclusion with
  | .crashed crash => o.setTask k { task with phase := .ended (.crashed crash) }
  | .cancelled => o.setTask k { task with phase := .ended .cancelled }
  | .result result =>
    if task.generation = o.generation then o.record k task result
    else o.setTask k { task with phase := .ended .discarded }

/-- One step of a task, if it can proceed. -/
def step? (o : Orchestrator) (k : Nat) : Option Orchestrator :=
  match o.tasks[k]? with
  | none => none
  | some task =>
    match task.phase with
    | .ended _ => none
    | .ready =>
      if task.results.length < task.pipeline.size then some (o.startReads k task)
      else some (o.finish k task none)
    | .reading reads =>
      if o.isInstant then some (o.conclude k task (.interrupted .timedOut))
      else if o.isOpen reads.barrier then
        some (o.conclude k task (ReadPair.outcome reads.page reads.count))
      else none

/-- Lets the time of a task run out, if its reads are waiting and their time is limited. -/
def expire? (o : Orchestrator) (k : Nat) : Option Orchestrator :=
  match o.tasks[k]? with
  | none => none
  | some task =>
    match task.phase with
    | .reading reads =>
      if o.isLimited && !o.isOpen reads.barrier then
        some (o.conclude k task (.interrupted .timedOut))
      else none
    | _ => none

/-- Lets a task take up to `fuel` steps. -/
def settleTask : (fuel : Nat) → (k : Nat) → Orchestrator → Orchestrator
  | 0, _, o => o
  | fuel + 1, k, o =>
    match o.step? k with
    | some next => settleTask fuel k next
    | none => o

/-- How many steps a task can take at most: two for each stage and one more. -/
def stepBound (o : Orchestrator) (k : Nat) : Nat :=
  match o.tasks[k]? with
  | some task => 2 * task.pipeline.size + 1
  | none => 0

/-- Lets a task go on until it can not. -/
def settleOne (o : Orchestrator) (k : Nat) : Orchestrator := settleTask (o.stepBound k) k o

/-- Lets all tasks go on until none can. -/
def settle (o : Orchestrator) : Orchestrator :=
  (List.range o.tasks.length).foldl settleOne o

/-- Waits until a task has ended, if need be by letting its time run out. -/
def await (o : Orchestrator) (k : Nat) : Orchestrator :=
  let settled := o.settle
  match settled.expire? k with
  | some expired => expired.settle
  | none => settled

/-- The result of a task that is waited for; before its end there is none. -/
def ending? (o : Orchestrator) (k : Nat) : Option Ending := (o.tasks[k]?).bind Task.ending?

end Orchestrator

end StageChain
