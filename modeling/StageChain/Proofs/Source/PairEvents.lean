import Mathlib.Data.List.Induction
import StageChain.Proofs.Source.Concluding

/-!
# Pairs of reads, event by event

`ReadPair` follows a pair of reads by events, and in one event both reads may end. Its events happen
one after another, each when the loop has nothing left to do; a read that ends in the same event as
the other is the page first. Whatever the loop does between events, it ends the pair exactly as
`ReadPair` says: `Follows.agrees`. `pair_concludes` puts this together with what holds for all
orders of moves.
-/

namespace StageChain

/-- How the pair ends with a conclusion. Where it is interrupted, it does not know what for. -/
def Conclusion.ending : Conclusion → ReadLoop.Ending
  | .fetched documents count => .ok (documents, count)
  | .failed fault => .error (.fault fault)
  | .interrupted _ => .error .cancelled

/-- With both answers, the pair ends as they say. -/
theorem Conclusion.ending_ofAnswers (documents : List Value) (total : Value) :
    (Conclusion.ofAnswers documents total).ending = ReadLoop.endingOf documents total := by
  unfold Conclusion.ofAnswers ReadLoop.endingOf
  cases countOf total <;> rfl

namespace ReadLoop

/-- How the pair has ended, if it has. -/
def State.ending? (s : State) : Option Ending :=
  match s.place with
  | .ended ending => some ending
  | _ => none

/-- The move by which a read ends, if it is running. -/
def State.endOf (s : State) (read : ReadKind)
    (outcome : Option (Except ReadFault read.Answer)) : List Move :=
  if s.isRunning read then (outcome.map (.ends read)).toList else []

/-- The moves that an event consists of, the page first. -/
def State.happening (s : State) : PairEvent → List Move
  | .ended page count => s.endOf .page page ++ s.endOf .count count
  | .interrupt _ => if s.current?.isSome then [.interrupt] else []

/-- The moves of events that happen one after another, each when the loop has nothing left to do. -/
inductive Follows : List PairEvent → List Move → State → Prop where
  | start : Follows [] [] .start
  | event {events : List PairEvent} {moves after : List Move} {s t : State} {event : PairEvent} :
      Follows events moves s → (∀ move ∈ after, move.IsInternal) →
      s.run? (s.happening event ++ after) = some t → t.Settled →
      Follows (events ++ [event]) (moves ++ (s.happening event ++ after)) t

variable {events : List PairEvent} {event : PairEvent} {moves after : List Move} {move : Move}
  {s t : State} {read : ReadKind}

theorem Follows.runs (h : Follows events moves s) : Runs moves s := by
  induction h with
  | start => exact .start
  | event _ _ hrun _ ih => exact ih.append hrun

theorem Follows.settled (h : Follows events moves s) : s.Settled := by
  cases h with
  | start => exact ⟨rfl, fun _ _ => rfl⟩
  | event _ _ _ hsettled => exact hsettled

/-- A read that has not been asked to stop can end, and the other read is as it was. -/
theorem exists_run?_endOf (hcalm : s.isRunning read = true → s.asked read = false)
    (outcome : Option (Except ReadFault read.Answer)) :
    ∃ t, s.run? (s.endOf read outcome) = some t ∧ t.asked = s.asked ∧
      ∀ other ≠ read, t.isRunning other = s.isRunning other := by
  unfold State.endOf
  split
  · rename_i hrunning
    cases outcome with
    | none => exact ⟨s, rfl, rfl, fun _ _ => rfl⟩
    | some outcome =>
        refine ⟨s.finish read (ReadState.running.finish (some outcome)), ?_, rfl, fun other hne =>
          State.isRunning_finish_of_ne hne⟩
        simp [State.run?, State.step?, hrunning, hcalm hrunning]
  · exact ⟨s, rfl, rfl, fun _ _ => rfl⟩

theorem exists_run?_happening (hsettled : s.Settled) (event : PairEvent) :
    ∃ t, s.run? (s.happening event) = some t := by
  cases event with
  | ended page count =>
      obtain ⟨next, hpage, hasked, hother⟩ := exists_run?_endOf (hsettled.2 .page) page
      have hrunning := hother .count (by decide)
      have hcalm : next.isRunning .count = true → next.asked .count = false := by
        rw [hrunning, hasked]
        exact hsettled.2 .count
      obtain ⟨t, hcount, -⟩ := exists_run?_endOf hcalm count
      -- The end of the page makes no difference to the count, so its move stays the same.
      have hsame : next.endOf .count count = s.endOf .count count := by
        unfold State.endOf
        rw [hrunning]
      refine ⟨t, ?_⟩
      rw [State.happening, State.run?_append, hpage, Option.bind_some, ← hsame, hcount]
  | interrupt interruption =>
      cases hcurrent : s.current? with
      | none => exact ⟨s, by rw [State.happening, hcurrent]; rfl⟩
      | some wait =>
          refine ⟨s.interrupt wait, ?_⟩
          simp [State.happening, State.run?, State.step?, hcurrent]

/-- Whatever happens, it has moves. -/
theorem Follows.exists_event (h : Follows events moves s) (event : PairEvent) :
    ∃ moves t, Follows (events ++ [event]) moves t := by
  obtain ⟨t, ht⟩ := exists_run?_happening h.settled event
  obtain ⟨after, last, hinternal, hrun, hsettled⟩ := (h.runs.append ht).exists_settled
  refine ⟨_, last, h.event hinternal ?_ hsettled⟩
  rw [State.run?_append, ht, Option.bind_some, hrun]

theorem exists_follows (events : List PairEvent) : ∃ moves s, Follows events moves s := by
  induction events using List.reverseRecOn with
  | nil => exact ⟨[], _, .start⟩
  | append_singleton events event ih =>
      obtain ⟨moves, s, h⟩ := ih
      exact h.exists_event event

/-! ## Events and their moves -/

/-- The failure by which a read ends in an event. -/
theorem faults_endOf (read : ReadKind) (outcome : Option (Except ReadFault read.Answer))
    (hquiet : raised? (s.reads read) = none) :
    faults (s.endOf read outcome) = ((s.reads read).finish outcome).fault?.toList := by
  unfold State.endOf State.isRunning
  cases hstate : s.reads read with
  | running =>
      cases outcome with
      | none => rfl
      | some outcome => cases outcome <;> rfl
  | succeeded value => cases outcome <;> rfl
  | failed | cancelled =>
      rw [hstate] at hquiet
      cases hquiet

/-- The value by which a read ends in an event. -/
theorem mem_endOf_iff (outcome : Option (Except ReadFault read.Answer)) {value : read.Answer} :
    .ends read (.ok value) ∈ s.endOf read outcome ∨ s.reads read = .succeeded value ↔
      (s.reads read).finish outcome = .succeeded value := by
  unfold State.endOf State.isRunning
  cases hstate : s.reads read with
  | running =>
      cases outcome with
      | none => simp [ReadState.isRunning, ReadState.finish]
      | some outcome => cases outcome <;> simp [ReadState.isRunning, ReadState.finish, eq_comm]
  | succeeded other => cases outcome <;> simp [ReadState.isRunning, ReadState.finish]
  | failed | cancelled => cases outcome <;> simp [ReadState.isRunning, ReadState.finish]

theorem not_mem_endOf_of_ne {other : ReadKind} (h : other ≠ read) (outcome) (value : read.Answer) :
    .ends read (.ok value) ∉ s.endOf other outcome := by
  unfold State.endOf
  split
  · cases outcome <;> simp [h.symm]
  · simp

theorem interrupt_not_mem_endOf (read : ReadKind) (outcome) :
    .interrupt ∉ s.endOf read outcome := by
  unfold State.endOf
  split
  · cases outcome <;> simp
  · simp

/-- The loop itself lets no read fail. -/
theorem faults_of_internal (h : ∀ move ∈ after, move.IsInternal) : faults after = [] := by
  induction after with
  | nil => rfl
  | cons move after ih =>
      obtain ⟨hmove, hafter⟩ := List.forall_mem_cons.1 h
      cases move with
      | ends | interrupt => cases hmove
      | stops | turn => exact ih hafter

theorem not_mem_of_internal (h : ∀ move ∈ after, move.IsInternal) (move : Move)
    (hmove : ¬ move.IsInternal) : move ∉ after := fun hmem => hmove (h move hmem)

/-- If nothing has failed or interrupted a pair that has ended, both reads have succeeded. -/
theorem Runs.exists_answers (h : Runs moves s) (hfaults : faults moves = [])
    (hinterrupt : .interrupt ∉ moves) {ending : Ending} (hended : s.place = .ended ending) :
    ∃ documents total, s.reads .page = .succeeded documents ∧ s.reads .count = .succeeded total := by
  cases h.traced.ended ending hended with
  | answered documents total hpage hcount => exact ⟨documents, total, hpage, hcount⟩
  | raised raised hcause =>
      cases raised with
      | cancelled => exact absurd (Heard.mem hcause) hinterrupt
      | fault fault =>
          rw [Cause, hfaults] at hcause
          cases hcause

/-- If nothing has failed or interrupted the pair, no read has ended otherwise than by
succeeding. -/
theorem Runs.raised?_eq_none (h : Runs moves s) (hsettled : s.Settled) (hfaults : faults moves = [])
    (hinterrupt : .interrupt ∉ moves) (read : ReadKind) : raised? (s.reads read) = none := by
  rcases h.ended_or_waits hsettled with ⟨ending, hended⟩ | ⟨-, -, -, hquiet⟩
  · obtain ⟨documents, total, hpage, hcount⟩ := h.exists_answers hfaults hinterrupt hended
    cases read with
    | page => rw [hpage]; rfl
    | count => rw [hcount]; rfl
  · exact hquiet read

/-- Two reads that have not failed or stopped are the same if they succeeded with the same value. -/
theorem eq_of_succeeded_iff {α : Type} {state other : ReadState α} (hstate : raised? state = none)
    (hother : raised? other = none)
    (h : ∀ value, state = .succeeded value ↔ other = .succeeded value) : state = other := by
  cases state with
  | succeeded value => exact ((h value).1 rfl).symm
  | failed | cancelled => cases hstate
  | running =>
      cases other with
      | running => rfl
      | succeeded value => exact (h value).2 rfl
      | failed | cancelled => cases hother

theorem raised?_finish {α : Type} {state : ReadState α} {outcome : Option (Except ReadFault α)}
    (hstate : raised? state = none) (hfault : (state.finish outcome).fault? = none) :
    raised? (state.finish outcome) = none := by
  cases state with
  | succeeded => cases outcome <;> rfl
  | failed | cancelled => cases hstate
  | running =>
      cases outcome with
      | none => rfl
      | some outcome =>
          cases outcome with
          | ok => rfl
          | error => cases hfault

/-- How a pair is settled: by the failure that comes first, by both answers, or not yet. -/
theorem settle_cases (page : ReadState (List Value)) (count : ReadState Value) :
    (∃ fault, (page.fault?.toList ++ count.fault?.toList).head? = some fault ∧
      (ReadPair.settle ⟨page, count, none⟩).conclusion = some (.failed fault)) ∨
    page.fault? = none ∧ count.fault? = none ∧
      ((∃ documents total, page = .succeeded documents ∧ count = .succeeded total ∧
        (ReadPair.settle ⟨page, count, none⟩).conclusion = some (.ofAnswers documents total)) ∨
      (∀ documents total, page = .succeeded documents → count ≠ .succeeded total) ∧
        ReadPair.settle ⟨page, count, none⟩ = ⟨page, count, none⟩) := by
  cases page <;> cases count <;>
    simp [ReadPair.settle, ReadState.fault?, ReadPair.conclude]

/-- A pair that is followed move by move is as it is said to be after the events. -/
structure Agrees (pair : ReadPair) (s : State) : Prop where
  ending : s.ending? = pair.conclusion.map Conclusion.ending
  page : pair.conclusion = none → s.reads .page = pair.page
  count : pair.conclusion = none → s.reads .count = pair.count

theorem ending?_eq_some {ending : Ending} : s.ending? = some ending ↔ s.place = .ended ending := by
  unfold State.ending?
  cases s.place <;> simp

/-- A pair that is concluded agrees with a run that has ended so. -/
theorem agrees_of_ended {pair : ReadPair} {conclusion : Conclusion}
    (hconclusion : pair.conclusion = some conclusion) (hended : t.place = .ended conclusion.ending) :
    Agrees pair t := by
  refine ⟨?_, fun hopen => ?_, fun hopen => ?_⟩
  · rw [ending?_eq_some.2 hended, hconclusion]
    rfl
  · cases hconclusion.symm.trans hopen
  · cases hconclusion.symm.trans hopen

/-- Where nothing is left to do, the loop does nothing. -/
theorem run?_internal (hsettled : s.Settled) (hinternal : ∀ move ∈ after, move.IsInternal)
    (hrun : s.run? after = some t) : t = s := by
  cases after with
  | nil =>
      cases hrun
      rfl
  | cons move after =>
      obtain ⟨next, hstep, -⟩ := Option.bind_eq_some_iff.1 hrun
      have hmove := hinternal move List.mem_cons_self
      cases move with
      | ends | interrupt => cases hmove
      | turn =>
          rw [State.step?, hsettled.1] at hstep
          cases hstep
      | stops read =>
          simp only [State.step?, Option.ite_none_right_eq_some, Bool.and_eq_true] at hstep
          exact absurd ((hsettled.2 read hstep.1.1).symm.trans hstep.1.2) (by simp)

/-- A pair that has ended stays as it is. -/
theorem Follows.agrees_of_concluded (h : Follows events moves s) {pair : ReadPair}
    (hagrees : Agrees pair s) {conclusion : Conclusion}
    (hconclusion : pair.conclusion = some conclusion) (hinternal : ∀ move ∈ after, move.IsInternal)
    (hrun : s.run? (s.happening event ++ after) = some t) : Agrees (pair.step event) t := by
  have hended : s.place = .ended conclusion.ending := by
    rw [← ending?_eq_some, hagrees.ending, hconclusion]
    rfl
  have hnothing : s.happening event = [] := by
    have hrunning := fun read => h.runs.isRunning_eq_false hended read
    cases event with
    | ended page count => simp [State.happening, State.endOf, hrunning]
    | interrupt interruption => simp [State.happening, State.current?, hended]
  have hstep : pair.step event = pair := by
    unfold ReadPair.step
    rw [hconclusion]
  rw [hnothing, List.nil_append] at hrun
  rw [run?_internal h.settled hinternal hrun, hstep]
  exact hagrees

/-- An interruption ends a pair that is waiting. It is heard, since no news is on its way when the
loop has nothing left to do. -/
theorem agrees_interrupt (hbefore : Runs moves s) (hcalm : s.Settled)
    (hruns : Runs (moves ++ ([.interrupt] ++ after)) t) (hsettled : t.Settled) {pair : ReadPair}
    (hconclusion : pair.conclusion = none) (interruption : Interruption) :
    Agrees (pair.step (.interrupt interruption)) t := by
  have hloses : ¬ s.Loses := by
    intro hloses
    refine hloses.pending_ne_nil hbefore.sound.1 ?_
    rw [State.pending, hcalm.1]
    rfl
  have hheard : Heard (moves ++ ([.interrupt] ++ after)) := ⟨moves, after, s, rfl, hbefore, hloses⟩
  have hended := (hruns.concludes.interrupted_iff hsettled).2 hheard
  have hstep : pair.step (.interrupt interruption) = pair.conclude (.interrupted interruption) := by
    unfold ReadPair.step
    rw [hconclusion]
  rw [hstep]
  exact agrees_of_ended rfl hended

/-- After an event in which no read fails, a read is what the event makes of it. -/
theorem reads_eq_finish {all : List Move} (hbefore : Runs moves s) (hruns : Runs all t)
    {outcome : Option (Except ReadFault read.Answer)}
    (hmem : ∀ value, .ends read (.ok value) ∈ all ↔
      .ends read (.ok value) ∈ s.endOf read outcome ∨ .ends read (.ok value) ∈ moves)
    (hbefore' : raised? (s.reads read) = none) (hafter : raised? (t.reads read) = none)
    (hfault : ((s.reads read).finish outcome).fault? = none) :
    t.reads read = (s.reads read).finish outcome := by
  refine eq_of_succeeded_iff hafter (raised?_finish hbefore' hfault) fun value => ?_
  rw [hruns.succeeded_iff, hmem, ← hbefore.succeeded_iff, mem_endOf_iff]

section Ended

variable (page : Option (Except ReadFault (List Value))) (count : Option (Except ReadFault Value))

/-- The end of reads is no interruption. -/
theorem interrupt_not_mem_ended (hinterrupt : .interrupt ∉ moves)
    (hinternal : ∀ move ∈ after, move.IsInternal) :
    .interrupt ∉ moves ++ (s.endOf .page page ++ s.endOf .count count ++ after) := by
  simp only [List.mem_append, not_or]
  exact ⟨hinterrupt, ⟨interrupt_not_mem_endOf .page page, interrupt_not_mem_endOf .count count⟩,
    not_mem_of_internal hinternal .interrupt id⟩

/-- Where nothing has failed before, the failures are those by which the reads end, the page's
first. -/
theorem faults_ended (hfaults : faults moves = []) (hinterrupt : .interrupt ∉ moves)
    (hinternal : ∀ move ∈ after, move.IsInternal)
    (hquiet : ∀ read, raised? (s.reads read) = none) :
    faults (moves ++ (s.endOf .page page ++ s.endOf .count count ++ after)) =
      ((s.reads .page).finish page).fault?.toList ++
        ((s.reads .count).finish count).fault?.toList := by
  have hends : .interrupt ∉ s.endOf .page page ++ s.endOf .count count := by
    rw [List.mem_append, not_or]
    exact ⟨interrupt_not_mem_endOf .page page, interrupt_not_mem_endOf .count count⟩
  rw [faults_append_of_not_mem hinterrupt, faults_append_of_not_mem hends,
    faults_append_of_not_mem (interrupt_not_mem_endOf .page page), hfaults,
    faults_of_internal hinternal, faults_endOf .page page (hquiet .page),
    faults_endOf .count count (hquiet .count), List.nil_append, List.append_nil]

variable {page count}

/-- The end of reads ends a pair that is waiting as it is settled. -/
theorem agrees_ended (hbefore : Runs moves s) (hcalm : s.Settled)
    (hruns : Runs (moves ++ (s.endOf .page page ++ s.endOf .count count ++ after)) t)
    (hsettled : t.Settled) (hinternal : ∀ move ∈ after, move.IsInternal)
    (hfaults : faults moves = []) (hinterrupt : .interrupt ∉ moves) {pair : ReadPair}
    (hconclusion : pair.conclusion = none) (hagrees : Agrees pair s) :
    Agrees (pair.step (.ended page count)) t := by
  have hquiet := hbefore.raised?_eq_none hcalm hfaults hinterrupt
  have hlate : .interrupt ∉ moves ++ (s.endOf .page page ++ s.endOf .count count ++ after) :=
    interrupt_not_mem_ended page count hinterrupt hinternal
  have hall := faults_ended page count hfaults hinterrupt hinternal hquiet
  have hstep : pair.step (.ended page count) =
      ReadPair.settle ⟨(s.reads .page).finish page, (s.reads .count).finish count, none⟩ := by
    rw [hagrees.page hconclusion, hagrees.count hconclusion]
    unfold ReadPair.step
    rw [hconclusion]
  rw [hstep]
  rcases settle_cases ((s.reads .page).finish page) ((s.reads .count).finish count) with
    ⟨fault, hfirst, hsettle⟩ | ⟨hpage, hcount, hsettle⟩
  · rw [← hall] at hfirst
    exact agrees_of_ended hsettle
      ((hruns.concludes.fails_iff hsettled fault).2 (.inl ⟨hfirst, mt Heard.mem hlate⟩))
  -- Nothing has failed, so that both reads are as the event makes them.
  rw [hpage, hcount] at hall
  have hafter := hruns.raised?_eq_none hsettled hall hlate
  have hreads : t.reads .page = (s.reads .page).finish page :=
    reads_eq_finish hbefore hruns (fun value => by
      simp [not_mem_endOf_of_ne (by decide : ReadKind.count ≠ .page),
        not_mem_of_internal hinternal (.ends .page (.ok value)) id, or_comm])
      (hquiet .page) (hafter .page) hpage
  have hreads' : t.reads .count = (s.reads .count).finish count :=
    reads_eq_finish hbefore hruns (fun value => by
      simp [not_mem_endOf_of_ne (by decide : ReadKind.page ≠ .count),
        not_mem_of_internal hinternal (.ends .count (.ok value)) id, or_comm])
      (hquiet .count) (hafter .count) hcount
  rcases hsettle with ⟨documents, total, hdocuments, htotal, hsettle⟩ | ⟨hopen, hsettle⟩
  · refine agrees_of_ended hsettle ?_
    rw [Conclusion.ending_ofAnswers]
    exact hruns.answered hsettled (hreads.trans hdocuments) (hreads'.trans htotal) hlate
  · -- Not all answers are there. An ending would need a reason, and there is none.
    rw [hsettle]
    refine ⟨?_, fun _ => hreads, fun _ => hreads'⟩
    cases hplace : t.place with
    | reading | cleaning => rw [State.ending?, hplace]; rfl
    | ended ending =>
        obtain ⟨documents, total, hdocuments, htotal⟩ := hruns.exists_answers hall hlate hplace
        exact absurd (hreads'.symm.trans htotal)
          (hopen documents total (hreads.symm.trans hdocuments))

end Ended

/-- What events lead to, move by move, is what the pair is said to end with. -/
theorem Follows.agrees (h : Follows events moves s) : Agrees (ReadPair.run events) s := by
  induction h with
  | start => exact ⟨rfl, fun _ => rfl, fun _ => rfl⟩
  | @event events moves after s t event hfollows hinternal hrun hsettled ih =>
      have hstep : ReadPair.run (events ++ [event]) = (ReadPair.run events).step event := by
        rw [ReadPair.run, List.foldl_append]
        rfl
      rw [hstep]
      cases hconclusion : (ReadPair.run events).conclusion with
      | some conclusion => exact hfollows.agrees_of_concluded ih hconclusion hinternal hrun
      | none =>
          have hopen : s.ending? = none := by rw [ih.ending, hconclusion]; rfl
          have hruns := hfollows.runs
          have hafter := hruns.append hrun
          rcases hruns.ended_or_waits hfollows.settled with
            ⟨ending, hended⟩ | ⟨hfaults, hinterrupt, -⟩
          · rw [ending?_eq_some.2 hended] at hopen
            cases hopen
          cases event with
          | ended page count =>
              exact agrees_ended hruns hfollows.settled hafter hsettled hinternal hfaults hinterrupt
                hconclusion ih
          | interrupt interruption =>
              have hcurrent : s.current?.isSome = true := by
                cases hplace : s.place with
                | reading | cleaning => rw [State.current?, hplace]; rfl
                | ended ending =>
                    rw [ending?_eq_some.2 hplace] at hopen
                    cases hopen
              simp only [State.happening, hcurrent, if_true] at hafter
              exact agrees_interrupt hruns hfollows.settled hafter hsettled hconclusion interruption

/-- In any order of moves a pair of reads ends as it should, and over events it ends as it is said
to. -/
theorem pair_concludes :
    (∀ moves s, Runs moves s → Concludes moves s) ∧
      ∀ events, (∃ moves s, Follows events moves s) ∧
        ∀ moves s, Follows events moves s →
          Runs moves s ∧ s.ending? = (ReadPair.run events).conclusion.map Conclusion.ending :=
  ⟨fun _ _ hruns => hruns.concludes, fun events =>
    ⟨exists_follows events, fun _ _ hfollows => ⟨hfollows.runs, hfollows.agrees.ending⟩⟩⟩

/-- The count fails and the page never ends. -/
theorem concludes_failedCount :
    ∃ moves s, Follows [.ended none (some (.error (.refused "count failed")))] moves s ∧
      s.ending? = some (.error (.fault (.refused "count failed"))) ∧
        ∀ read, s.isRunning read = false := by
  obtain ⟨hall, hevents⟩ := pair_concludes
  obtain ⟨⟨moves, s, hfollows⟩, hends⟩ :=
    hevents [.ended none (some (.error (.refused "count failed")))]
  obtain ⟨hruns, hending⟩ := hends moves s hfollows
  exact ⟨moves, s, hfollows, hending, (hall moves s hruns).stopped _ (ending?_eq_some.1 hending)⟩

end ReadLoop

end StageChain
