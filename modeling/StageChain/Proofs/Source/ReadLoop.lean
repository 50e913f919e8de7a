import Mathlib.Logic.Function.Basic
import StageChain.Source.ReadPair

/-!
# Two reads as tasks of a loop

`ReadPair` says at once what a failure or an interruption comes to. Here a pair of reads is carried
out as it is written: two tasks are started and waited for; if that raises, both are cancelled and
waited for again, and what was raised is raised once more. A `State` has the tasks, the two waits
and the handles that the loop has yet to run, in order. A `Move` is one thing that happens, and any
order of moves is a run.

A read ends on its own or, once it has been asked to, by stopping, and that may take it any time. A
wait learns of it only when the loop runs the handle that tells it, and the waiting task goes on
only when the loop runs the handle that resumes it. An interruption can come in between.
-/

namespace StageChain

/-- What a read answers with. -/
abbrev ReadKind.Answer : ReadKind → Type
  | page => List Value
  | count => Value

namespace ReadLoop

/-- What a read or a wait can raise. -/
inductive Raised where
  | fault (fault : ReadFault)
  | cancelled

/-- How the pair ends: it returns the documents with the count, or it raises. -/
abbrev Ending := Except Raised (List Value × Int)

/-- How the pair ends with both answers: the count is made of the total, which can fail. -/
def endingOf (documents : List Value) (total : Value) : Ending :=
  match countOf total with
  | .ok count => .ok (documents, count)
  | .error fault => .error (.fault fault)

/-- What a read that has ended raises. -/
def raised? {α : Type} : ReadState α → Option Raised
  | .failed fault => some (.fault fault)
  | .cancelled => some .cancelled
  | _ => none

/-- The waits for both reads: for their answers, and for their end after they were cancelled. -/
inductive Wait where
  | first | last
deriving DecidableEq

/-- How far a wait has come. -/
structure Waiting where
  /-- How many reads it has been told of. -/
  told : Nat
  /-- Whether it was cancelled while a read was running. -/
  cancelled : Bool
  result : Option (Except Raised Unit)

/-- Tells a wait that a read has ended. The first wait is over when a read raises; otherwise a wait
is over with the last read. -/
def Waiting.tell (wait : Wait) (raised : Option Raised) (waiting : Waiting) : Waiting where
  told := waiting.told + 1
  cancelled := waiting.cancelled
  result :=
    match waiting.result, wait, raised with
    | some result, _, _ => some result
    | none, .first, some raised => some (.error raised)
    | none, _, _ =>
      if waiting.told + 1 = 2 then some (if waiting.cancelled then .error .cancelled else .ok ())
      else none

/-- What the loop has yet to run. -/
inductive Handle where
  /-- Tells a wait that a read has ended. -/
  | tell (wait : Wait) (read : ReadKind)
  /-- Lets the waiting task go on. -/
  | resume

/-- Where the task of the pair is. -/
inductive Place where
  /-- In the first wait. -/
  | reading
  /-- In the last wait, after something was raised. -/
  | cleaning (raised : Raised)
  | ended (ending : Ending)

/-- The state of a pair of reads and of its loop. -/
structure State where
  reads : (read : ReadKind) → ReadState read.Answer
  /-- The reads that have been asked to stop. -/
  asked : ReadKind → Bool
  waits : Wait → Waiting
  ready : List Handle
  place : Place
  /-- Whether the task of the pair is cancelled as soon as it is resumed. -/
  mustCancel : Bool

/-- One thing that happens. -/
inductive Move where
  /-- A read ends on its own. -/
  | ends (read : ReadKind) (outcome : Except ReadFault read.Answer)
  /-- A read that was asked to stops. -/
  | stops (read : ReadKind)
  /-- The pair is interrupted from outside. -/
  | interrupt
  /-- The loop runs the next handle. -/
  | turn

namespace State

/-- Both reads have been started, and the first wait has begun. -/
def start : State where
  reads _ := .running
  asked _ := false
  waits _ := ⟨0, false, none⟩
  ready := []
  place := .reading
  mustCancel := false

/-- Whether a read is running. -/
def isRunning (s : State) (read : ReadKind) : Bool := (s.reads read).isRunning

/-- The reads that have ended, the page first. -/
def done (s : State) : List ReadKind := [.page, .count].filter fun read => !s.isRunning read

/-- The waits that are told when a read ends. -/
def listening (s : State) : List Wait :=
  match s.place with
  | .reading => [.first]
  | .cleaning _ => [.first, .last]
  | .ended _ => []

/-- The wait that the task of the pair is in. -/
def current? (s : State) : Option Wait :=
  match s.place with
  | .reading => some .first
  | .cleaning _ => some .last
  | .ended _ => none

/-- Asks the reads that are running to stop. -/
def askAll (s : State) : State := { s with asked := fun read => s.asked read || s.isRunning read }

/-- A read has ended, and every wait that has begun will be told. -/
def finish (s : State) (read : ReadKind) (state : ReadState read.Answer) : State :=
  { s with
    reads := Function.update s.reads read state
    ready := s.ready ++ s.listening.map (.tell · read) }

/-- Tells a wait of a read, with these handles left. When the wait is over by that, its task will be
resumed. -/
def tell (s : State) (rest : List Handle) (wait : Wait) (read : ReadKind) : State :=
  let waiting := (s.waits wait).tell wait (raised? (s.reads read))
  let isOver := (s.waits wait).result.isNone && waiting.result.isSome
  { s with
    waits := Function.update s.waits wait waiting
    ready := rest ++ if isOver then [.resume] else [] }

/-- Something was raised in the first wait: the reads are asked to stop, and the last wait begins.
It will be told at once of the reads that have ended. -/
def clean (s : State) (raised : Raised) : State :=
  { s.askAll with
    place := .cleaning raised
    ready := s.ready ++ s.done.map (.tell .last) }

/-- The pair has ended. -/
def conclude (s : State) (ending : Ending) : State := { s with place := .ended ending }

/-- The answers of both reads, if they succeeded. -/
def answers? (s : State) : Option (List Value × Value) :=
  match s.reads .page, s.reads .count with
  | .succeeded documents, .succeeded total => some (documents, total)
  | _, _ => none

/-- What the wait that the task is in gives it: a cancellation that is due, or its result. -/
def received? (s : State) : Option (Except Raised Unit) :=
  if s.mustCancel then some (.error .cancelled)
  else s.current?.bind fun wait => (s.waits wait).result

/-- The task of the pair is running again, and the loop has these handles left. -/
def wake (s : State) (rest : List Handle) : State := { s with ready := rest, mustCancel := false }

/-- The task of the pair goes on. -/
def resume (s : State) (rest : List Handle) : State :=
  match s.place, s.received? with
  | .reading, some (.ok ()) =>
    match s.answers? with
    | some (documents, total) => (s.wake rest).conclude (endingOf documents total)
    | none => s.wake rest
  | .reading, some (.error raised) => (s.wake rest).clean raised
  | .cleaning raised, some (.ok ()) => (s.wake rest).conclude (.error raised)
  | .cleaning _, some (.error raised) => (s.wake rest).conclude (.error raised)
  | _, _ => s.wake rest

/-- Cancels a wait. -/
def cancelWait (s : State) (wait : Wait) : State :=
  { s with waits := Function.update s.waits wait { s.waits wait with cancelled := true } }

/-- The pair is interrupted: its wait is cancelled and with it the reads, or if there is nothing to
cancel any more, the task is as soon as it is resumed. -/
def interrupt (s : State) (wait : Wait) : State :=
  if (s.waits wait).result.isNone && s.done.length < 2 then s.askAll.cancelWait wait
  else { s with mustCancel := true }

/-- The state after a move, if the move can be made. -/
def step? (s : State) : Move → Option State
  | .ends read outcome =>
    if s.isRunning read && !s.asked read then
      some (s.finish read (ReadState.running.finish (some outcome)))
    else none
  | .stops read =>
    if s.isRunning read && s.asked read then some (s.finish read .cancelled) else none
  | .interrupt => s.current?.map s.interrupt
  | .turn =>
    match s.ready with
    | [] => none
    | .tell wait read :: rest => some (s.tell rest wait read)
    | .resume :: rest => some (s.resume rest)

/-- The state after moves, if they can be made. -/
def run? (s : State) : List Move → Option State
  | [] => some s
  | move :: moves => (s.step? move).bind (·.run? moves)

end State

/-- What has happened since the reads were started, and the state that it has led to. -/
inductive Runs : List Move → State → Prop where
  | start : Runs [] .start
  | move {moves : List Move} {s t : State} {move : Move} :
      Runs moves s → s.step? move = some t → Runs (moves ++ [move]) t

theorem State.run?_append (s : State) (moves more : List Move) :
    s.run? (moves ++ more) = (s.run? moves).bind (·.run? more) := by
  induction moves generalizing s with
  | nil => rfl
  | cons move moves ih =>
      rw [List.cons_append, run?, run?]
      cases s.step? move with
      | none => rfl
      | some next => exact ih next

theorem Runs.append {moves more : List Move} {s t : State} (h : Runs moves s)
    (hmore : s.run? more = some t) : Runs (moves ++ more) t := by
  induction more generalizing moves s with
  | nil =>
      cases hmore
      rwa [List.append_nil]
  | cons move more ih =>
      obtain ⟨next, hstep, hrest⟩ := Option.bind_eq_some_iff.1 hmore
      have hruns := ih (h.move hstep) hrest
      rwa [List.append_assoc, List.singleton_append] at hruns

theorem runs_iff {moves : List Move} {s : State} :
    Runs moves s ↔ State.start.run? moves = some s := by
  constructor
  · intro h
    induction h with
    | start => rfl
    | move _ hstep ih =>
        rw [State.run?_append, ih, Option.bind_some, State.run?, hstep, Option.bind_some, State.run?]
  · exact fun h => List.nil_append moves ▸ Runs.start.append h

/-- Moves lead to one state only. -/
theorem Runs.unique {moves : List Move} {s t : State} (h : Runs moves s) (hother : Runs moves t) :
    s = t := Option.some.inj ((runs_iff.1 h).symm.trans (runs_iff.1 hother))

end ReadLoop

end StageChain
