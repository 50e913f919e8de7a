import StageChain.Source.Basic

/-!
# Two reads at once

The page and the count of a prefix are read at the same time. `ReadPair` follows the two reads event
by event: a failure ends the pair at once and cancels the other read, and so does an interruption
from outside. When both reads have succeeded, the count is made of the total, and where that fails
the pair fails. Once a pair is concluded, neither read is running, as `ReadPair.step_settled` says.
-/

namespace StageChain

/-- What has become of a read. -/
inductive ReadState (α : Type) where
  | running
  | succeeded (value : α)
  | failed (fault : ReadFault)
  | cancelled

namespace ReadState

variable {α : Type}

/-- Whether the read is still running. -/
def isRunning : ReadState α → Bool
  | running => true
  | _ => false

/-- The failure of the read, if it failed. -/
def fault? : ReadState α → Option ReadFault
  | failed fault => some fault
  | _ => none

/-- The state after the read may have ended. -/
def finish (state : ReadState α) (outcome : Option (Except ReadFault α)) : ReadState α :=
  match state, outcome with
  | running, some (.ok value) => succeeded value
  | running, some (.error fault) => failed fault
  | state, _ => state

/-- Cancels the read if it is still running. -/
def cancel : ReadState α → ReadState α
  | running => cancelled
  | state => state

end ReadState

/-- How a pair of reads is interrupted from outside. -/
inductive Interruption where
  | cancelled
  | timedOut
deriving DecidableEq

/-- How a pair of reads ends. -/
inductive Conclusion where
  /-- Both reads succeeded, and the total came to a count. -/
  | fetched (documents : List Value) (count : Int)
  /-- A read failed, or the total came to no count. -/
  | failed (fault : ReadFault)
  /-- The pair was interrupted. -/
  | interrupted (interruption : Interruption)

/-- How a pair ends when both reads have succeeded. -/
def Conclusion.ofAnswers (documents : List Value) (total : Value) : Conclusion :=
  match countOf total with
  | .ok count => .fetched documents count
  | .error fault => .failed fault

/-- What happens to a pair of reads in one step: either read may end, or the pair is interrupted. -/
inductive PairEvent where
  | ended (page : Option (Except ReadFault (List Value))) (count : Option (Except ReadFault Value))
  | interrupt (interruption : Interruption)

/-- The state of a pair of reads. -/
structure ReadPair where
  page : ReadState (List Value)
  count : ReadState Value
  conclusion : Option Conclusion

namespace ReadPair

/-- Both reads have been started. -/
def started : ReadPair := ⟨.running, .running, none⟩

/-- Ends the pair and cancels the read that is still running. -/
def conclude (pair : ReadPair) (conclusion : Conclusion) : ReadPair :=
  ⟨pair.page.cancel, pair.count.cancel, some conclusion⟩

/-- Ends the pair if a read has failed, the page first, or if both have succeeded. -/
def settle (pair : ReadPair) : ReadPair :=
  match pair.page.fault?, pair.count.fault? with
  | some fault, _ => pair.conclude (.failed fault)
  | none, some fault => pair.conclude (.failed fault)
  | none, none =>
    match pair.page, pair.count with
    | .succeeded documents, .succeeded total => pair.conclude (.ofAnswers documents total)
    | _, _ => pair

/-- One step of the pair. -/
def step (pair : ReadPair) (event : PairEvent) : ReadPair :=
  match pair.conclusion, event with
  | some _, _ => pair
  | none, .ended page count => settle ⟨pair.page.finish page, pair.count.finish count, none⟩
  | none, .interrupt interruption => pair.conclude (.interrupted interruption)

/-- The pair after a list of events. -/
def run (events : List PairEvent) : ReadPair := events.foldl step started

/-- Whether a concluded pair has no running read. -/
def Settled (pair : ReadPair) : Prop :=
  pair.conclusion.isSome → pair.page.isRunning = false ∧ pair.count.isRunning = false

theorem settled_conclude (pair : ReadPair) (conclusion : Conclusion) :
    (pair.conclude conclusion).Settled := by
  intro _
  constructor
  · cases h : pair.page <;> simp [conclude, ReadState.cancel, ReadState.isRunning, h]
  · cases h : pair.count <;> simp [conclude, ReadState.cancel, ReadState.isRunning, h]

/-- A step leaves no read running in a concluded pair. -/
theorem step_settled {pair : ReadPair} (h : pair.Settled) (event : PairEvent) :
    (pair.step event).Settled := by
  obtain ⟨page, count, conclusion⟩ := pair
  cases conclusion with
  | some conclusion => exact h
  | none =>
    cases event with
    | interrupt interruption => exact settled_conclude _ _
    | ended first second =>
      simp only [step, settle]
      split
      · exact settled_conclude _ _
      · exact settled_conclude _ _
      · split
        · exact settled_conclude _ _
        · exact fun h => absurd h (by simp)

/-- How a pair ends when both reads end in the same step. -/
def outcome (page : Except ReadFault (List Value)) (count : Except ReadFault Value) : Conclusion :=
  match page, count with
  | .error fault, _ => .failed fault
  | .ok _, .error fault => .failed fault
  | .ok documents, .ok total => .ofAnswers documents total

/-- Reads that have ended are not interrupted. -/
theorem outcome_ne_interrupted (page : Except ReadFault (List Value))
    (count : Except ReadFault Value) (interruption : Interruption) :
    outcome page count ≠ .interrupted interruption := by
  cases page with
  | error fault => simp [outcome]
  | ok documents =>
    cases count with
    | error fault => simp [outcome]
    | ok total =>
      simp only [outcome, Conclusion.ofAnswers]
      cases countOf total <;> simp

theorem step_started_ended (page : Except ReadFault (List Value)) (count : Except ReadFault Value) :
    (started.step (.ended (some page) (some count))).conclusion = some (outcome page count) := by
  cases page <;> cases count <;> rfl

end ReadPair

end StageChain
