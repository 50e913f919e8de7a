import StageChain.Graph.Editor
import StageChain.Pipeline.Report
import StageChain.Preview.Orchestrator

/-!
# Preview sessions

A session owns an editor and keeps previews in step with it. The report of the graph is kept for its
revision. A change of the graph while a preview is running starts a fresh preview of the first page.
An attempt to start a preview can change the session even where it fails, so `Session.startPreview`
and what builds on it give the session afterwards together with the fault, if there was one.

The atomic steps are `Session.step?`, a step of a task of the orchestrator, and `Session.resume`,
by which the session takes note of a run that has finished and marks the node that failed.
`Session.settle` takes all steps that can be taken.
-/

namespace StageChain

/-- What a preview that was asked for is waiting on. -/
inductive PendingPreview where
  /-- Nothing: the graph was refused. -/
  | settled (run : Run)
  /-- A task of the orchestrator. -/
  | following (task : Nat)

/-- The state of a session. -/
structure Session where
  editor : Editor
  orchestrator : Orchestrator
  /-- The report of the graph and the revision that it is for. -/
  cached : Option (Report × Nat)
  /-- The results of the current preview, by node. -/
  previews : OrderedMap StageResult
  page : Int
  pending : Option PendingPreview
  /-- The tasks whose end the session has still to take note of. -/
  following : List Nat

namespace Session

/-- A session that has not previewed anything. -/
def create (editor : Editor) (orchestrator : Orchestrator) : Session :=
  ⟨editor, orchestrator, none, .empty, 1, none, []⟩

/-- The session that keeps a report for the present revision. -/
def keep (s : Session) (report : Report) : Session :=
  { s with cached := some (report, s.editor.revision) }

/-- The report that is kept for the present revision, if there is one. -/
def kept? (s : Session) : Option Report :=
  (s.cached.filter fun entry => entry.2 == s.editor.revision).map (·.1)

/-- The report of the graph, and the session that keeps it. -/
def report (s : Session) : Except Text.OverlongNumeral (Report × Session) :=
  match s.kept? with
  | some report => .ok (report, s)
  | none => s.editor.graph.compile.map fun report => (report, s.keep report)

/-- Marks the node that a failure is attributed to, if it is there and its id is not empty. -/
def mark (s : Session) (failure : Failure) : Session :=
  match failure.nodeId?.filter (!·.isEmpty) with
  | some id => { s with editor := s.editor.mark id (.text failure.text) }
  | none => s

/-- Starts a preview of what a report says. A graph that is not valid is refused without any
read; a pipeline without stages runs as the empty one. -/
def startReported (s : Session) (report : Report) (page : Int) : Except RunFault Session :=
  let s := { s with previews := .empty, editor := s.editor.clearErrors }
  match report.result with
  | .error failure =>
    let run := s.orchestrator.refusedRun failure
    let s := { s with orchestrator := s.orchestrator.reject failure }
    .ok { s.mark failure with pending := some (.settled run) }
  | .ok pipeline =>
    (s.orchestrator.start pipeline page).map fun next =>
      let task := next.tasks.length - 1
      { s with
        orchestrator := next
        pending := some (.following task)
        following := s.following ++ [task] }

/-- Starts a preview of one page. -/
def startPreview (s : Session) (page : Int) : Session × Option RunFault :=
  if page < 1 then (s, some .pageTooSmall)
  else
    let s := { s with page := page }
    match s.report with
    | .error numeral => (s, some (.overlong numeral))
    | .ok (report, s) =>
      match s.startReported report page with
      | .ok next => (next, none)
      | .error fault => (s, some fault)

/-- What the session does when its editor tells it of a change: a running preview is started
afresh. -/
def onChange (s : Session) : Session × Option RunFault :=
  if s.orchestrator.inFlight then s.startPreview 1 else (s, none)

/-- Hears one notice, unless an earlier one has led to a fault. -/
def hear (state : Session × Option RunFault) : Session × Option RunFault :=
  match state.2 with
  | none => state.1.onChange
  | some _ => state

/-- Takes over the result of an operation of the editor and hears what it tells. -/
def receive (s : Session) (edited : Edited) : Session × Option RunFault :=
  edited.notices.foldl (fun state _ => hear state) ({ s with editor := edited.editor }, none)

/-- Performs an operation of the editor. -/
def edit (s : Session) (edit : Edit) : Except EditFault (Session × Option RunFault) :=
  (s.editor.apply edit).map s.receive

/-- Stores the result of an event if it is of the current generation. -/
def absorb (generation : Nat) (previews : OrderedMap StageResult) (event : RunEvent) :
    OrderedMap StageResult :=
  if event.generation = generation then previews.insert event.result.nodeId event.result
  else previews

/-- Takes over the orchestrator and stores the results that it has told of since. -/
def observe (s : Session) (next : Orchestrator) : Session :=
  let news := next.events.drop s.orchestrator.events.length
  { s with
    orchestrator := next
    previews := news.foldl (absorb next.generation) s.previews }

/-- One step of a task. -/
def step? (s : Session) (k : Nat) : Option Session := (s.orchestrator.step? k).map s.observe

/-- Lets the time of a task run out. -/
def expire? (s : Session) (k : Nat) : Option Session := (s.orchestrator.expire? k).map s.observe

/-- Takes note of the end of a task: a failed run marks its node. -/
def resume (s : Session) (k : Nat) : Session :=
  if s.following.contains k then
    match s.orchestrator.ending? k with
    | none => s
    | some ending =>
      let s := { s with following := s.following.erase k }
      match ending with
      | .finished run =>
        match run.failure with
        | some failure => s.mark failure
        | none => s
      | _ => s
  else s

/-- Lets a task take up to `fuel` steps. -/
def settleTask : (fuel : Nat) → (k : Nat) → Session → Session
  | 0, _, s => s
  | fuel + 1, k, s =>
    match s.step? k with
    | some next => settleTask fuel k next
    | none => s

/-- Lets a task go on until it can not, and takes note of its end. -/
def settleOne (s : Session) (k : Nat) : Session :=
  (settleTask (s.orchestrator.stepBound k) k s).resume k

/-- Lets all tasks go on until none can. -/
def settle (s : Session) : Session :=
  (List.range s.orchestrator.tasks.length).foldl settleOne s

/-- Waits until the pending preview has ended, if need be by letting its time run out. -/
def await (s : Session) : Session :=
  let settled := s.settle
  match settled.pending with
  | some (.following k) =>
    match settled.expire? k with
    | some expired => expired.settle
    | none => settled
  | _ => settled

/-- How the pending preview ended, if there is one and it has. -/
def pendingEnding? (s : Session) : Option Ending :=
  match s.pending with
  | some (.settled run) => some (.finished run)
  | some (.following k) => s.orchestrator.ending? k
  | none => none

end Session

end StageChain
