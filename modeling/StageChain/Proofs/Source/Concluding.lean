import StageChain.Proofs.Source.Interrupting

/-!
# What a pair of reads ends with

Whatever the order of the moves, a pair of reads returns the answers of both, or raises the failure
that came first, or is interrupted. And it comes to that without the other read ever ending on its
own: the loop has only so much left to do, and when it has nothing left the pair has ended, or else
nothing has failed or interrupted it and it still waits for a read. `Runs.concludes` has it all.

Two things can come in between. An interruption is lost if a read has failed, the first wait has not
been told of it and the other read is still running: then the failure is raised. And with both
answers there, the count is made of the total, which fails where the total is no number.
-/

namespace StageChain.ReadLoop

variable {moves : List Move} {move : Move} {s t : State} {wait : Wait} {read : ReadKind}
  {rest : List Handle}

/-! ## Where a run comes to rest -/

/-- Nothing is left that the loop can do: it has no handle, and no read has yet to stop. -/
def State.Settled (s : State) : Prop :=
  s.ready = [] ∧ ∀ read, s.isRunning read = true → s.asked read = false

/-- While the task is in a wait and the loop has nothing left to do, a read is running. -/
theorem exists_running_of_settled (hsound : s.Sound) (hresumed : s.Resumed) (hready : s.ready = [])
    (hcurrent : s.current? = some wait) :
    (s.waits wait).result = none ∧ ∃ read, s.isRunning read = true := by
  have hcount := hresumed wait hcurrent
  rw [hready] at hcount
  have hopen : ¬ (s.waits wait).result.isSome = true := by
    intro hsome
    rw [if_pos hsome] at hcount
    cases hcount
  refine ⟨Option.not_isSome_iff_eq_none.1 hopen, exists_running ?_⟩
  have htold := hsound.told wait (State.mem_listening_of_current? hcurrent)
  have hle := s.length_done_le
  have hpart := mt (hsound.whole wait) hopen
  rw [hready, List.countP_nil] at htold
  omega

/-- A pair comes to rest where it has ended, or where nothing has failed or interrupted it and a
read is still running. -/
theorem Runs.ended_or_waits (h : Runs moves s) (hsettled : s.Settled) :
    (∃ ending, s.place = .ended ending) ∨
      faults moves = [] ∧ .interrupt ∉ moves ∧ (∃ read, s.isRunning read = true) ∧
        ∀ read, raised? (s.reads read) = none := by
  obtain ⟨hready, hcalm⟩ := hsettled
  obtain ⟨hsound, hresumed⟩ := h.sound
  cases hplace : s.place with
  | ended ending => exact .inl ⟨ending, rfl⟩
  | cleaning raised =>
      -- All reads were asked to stop, so none of them can be running at rest.
      have hcurrent : s.current? = some .last := State.current?_of_cleaning hplace
      obtain ⟨-, read, hrunning⟩ := exists_running_of_settled hsound hresumed hready hcurrent
      have hasked := (hsound.left (by rw [hplace]; simp)).2 read hrunning
      exact absurd ((hcalm read hrunning).symm.trans hasked) (by simp)
  | reading =>
      have hcurrent : s.current? = some .first := State.current?_of_reading hplace
      obtain ⟨hnone, read, hrunning⟩ := exists_running_of_settled hsound hresumed hready hcurrent
      refine .inr ⟨?_, fun hinterrupt => ?_, ⟨read, hrunning⟩, fun other => ?_⟩
      · rw [← h.traced.untold hnone, State.pending, hready]
        rfl
      · have hasked := h.traced.heeded hnone hinterrupt read hrunning
        exact absurd ((hcalm read hrunning).symm.trans hasked) (by simp)
      · cases hother : s.isRunning other with
        | true => exact raised?_of_isRunning hother
        | false =>
            refine (hsound.unheard hnone other hother).resolve_left fun hmem => ?_
            rw [hready] at hmem
            cases hmem

/-- What a move makes of a read: it is kept, ends on its own, or stops. -/
inductive ReadEffect (s : State) (read : ReadKind) (move : Move) :
    ReadState read.Answer → Prop where
  | kept (hmove : ∀ outcome, move ≠ .ends read outcome) : ReadEffect s read move (s.reads read)
  | ended (outcome : Except ReadFault read.Answer) (hrunning : s.isRunning read = true)
      (hmove : move = .ends read outcome) :
      ReadEffect s read move (ReadState.running.finish (some outcome))
  | stopped (hrunning : s.isRunning read = true) (hmove : ∀ outcome, move ≠ .ends read outcome) :
      ReadEffect s read move .cancelled

theorem readEffect_of_effect (heffect : s.Effect move t) (read : ReadKind) :
    ReadEffect s read move (t.reads read) := by
  cases heffect with
  | ended other outcome hrunning _ =>
      by_cases hsame : other = read
      · subst hsame
        rw [State.reads_finish_self]
        exact .ended outcome hrunning rfl
      · rw [State.reads_finish_of_ne (Ne.symm hsame)]
        exact .kept fun outcome heq => hsame (Move.ends.inj heq).1
  | stopped other hrunning _ =>
      by_cases hsame : other = read
      · subst hsame
        rw [State.reads_finish_self]
        exact .stopped hrunning (by simp)
      · rw [State.reads_finish_of_ne (Ne.symm hsame)]
        exact .kept (by simp)
  | interrupted wait _ =>
      have hreads : (s.interrupt wait).reads = s.reads := by
        unfold State.interrupt
        split <;> rfl
      rw [hreads]
      exact .kept (by simp)
  | told | raised | returned | cleaned | idle => exact .kept (by simp)

/-- A read that is running has neither failed nor succeeded. -/
theorem reads_eq_running (h : s.isRunning read = true) : s.reads read = .running := by
  unfold State.isRunning at h
  cases hstate : s.reads read with
  | running => rfl
  | succeeded | failed | cancelled =>
      rw [hstate] at h
      cases h

/-- A failure in the order of failures is that of a read. -/
theorem Runs.exists_failed (h : Runs moves s) {fault : ReadFault} (hfault : fault ∈ faults moves) :
    ∃ read, s.reads read = .failed fault := by
  induction h with
  | start => cases hfault
  | @move moves s t move hruns hstep ih =>
      have heffect := hruns.effect hstep
      -- Only a running read changes, so one that has failed stays as it is.
      have hkept : fault ∈ faults moves → ∃ read, t.reads read = .failed fault := by
        intro hmem
        obtain ⟨read, hfailed⟩ := ih hmem
        refine ⟨read, ?_⟩
        have hread := readEffect_of_effect heffect read
        generalize t.reads read = state at hread ⊢
        cases hread with
        | kept => exact hfailed
        | ended _ hrunning | stopped hrunning =>
            cases (reads_eq_running hrunning).symm.trans hfailed
      by_cases hinterrupt : .interrupt ∈ moves
      · rw [faults_append_of_mem hinterrupt] at hfault
        exact hkept hfault
      · rw [faults_append_of_not_mem hinterrupt, List.mem_append] at hfault
        refine hfault.elim hkept fun hnew => ?_
        cases heffect with
        | ended read outcome hrunning hasked =>
            cases outcome with
            | ok value => cases hnew
            | error first =>
                obtain rfl := List.mem_singleton.1 hnew
                exact ⟨read, State.reads_finish_self⟩
        | stopped | interrupted | told | raised | returned | cleaned | idle => cases hnew

/-- A read has succeeded with a value if it ended with it. -/
theorem Runs.succeeded_iff (h : Runs moves s) {value : read.Answer} :
    s.reads read = .succeeded value ↔ .ends read (.ok value) ∈ moves := by
  induction h with
  | start => simp [State.start]
  | @move moves s t move hruns hstep ih =>
      have hread := readEffect_of_effect (hruns.effect hstep) read
      rw [List.mem_append, ← ih, List.mem_singleton]
      generalize t.reads read = state at hread ⊢
      cases hread with
      | kept hmove => simp [(hmove _).symm]
      | ended outcome hrunning hmove =>
          subst hmove
          cases outcome <;> simp [reads_eq_running hrunning, ReadState.finish, eq_comm]
      | stopped hrunning hmove => simp [reads_eq_running hrunning, (hmove _).symm]

/-- If both reads succeed, none fails. -/
theorem Runs.faults_eq_nil (h : Runs moves s) {documents : List Value} {total : Value}
    (hpage : s.reads .page = .succeeded documents) (hcount : s.reads .count = .succeeded total) :
    faults moves = [] := by
  rw [List.eq_nil_iff_forall_not_mem]
  intro fault hfault
  obtain ⟨read, hfailed⟩ := h.exists_failed hfault
  cases read with
  | page => cases hpage.symm.trans hfailed
  | count => cases hcount.symm.trans hfailed

/-! ## Coming to rest -/

/-- A move of the loop itself. -/
def Move.IsInternal : Move → Prop
  | .stops _ | .turn => True
  | .ends _ _ | .interrupt => False

/-- How many moves are left at most to the wait that the task is in and to what comes after it. -/
def State.ahead (s : State) : Nat :=
  match s.current? with
  | some wait => (if wait = .first then 4 else 1) + if (s.waits wait).result.isSome then 0 else 1
  | none => 0

/-- How many moves are still possible at most, interruptions apart. -/
def State.work (s : State) : Nat := s.ready.length + 3 * (2 - s.done.length) + s.ahead

theorem work_finish (hrunning : s.isRunning read = true) {state : ReadState read.Answer}
    (hstate : state.isRunning = false) : (s.finish read state).work < s.work := by
  have hdone := State.length_done_finish hrunning hstate
  have hle := (s.finish read state).length_done_le
  have hready : (s.finish read state).ready.length = s.ready.length + s.listening.length := by
    rw [State.ready_finish, List.length_append, List.length_map]
  have hlistening : s.listening.length ≤ 2 := by
    unfold State.listening
    split <;> simp
  have hahead : (s.finish read state).ahead = s.ahead := rfl
  unfold State.work
  omega

theorem work_tell (hsound : s.Sound) (hready : s.ready = .tell wait read :: rest) :
    (s.tell rest wait read).work < s.work := by
  have hlength : (s.tell rest wait read).ready.length = rest.length +
      if (s.waits wait).result.isNone &&
        ((s.tell rest wait read).waits wait).result.isSome then 1 else 0 := by
    rw [State.ready_tell, List.length_append, apply_ite List.length]
    rfl
  have hdone : (s.tell rest wait read).done = s.done := rfl
  have hcurrent : (s.tell rest wait read).current? = s.current? := rfl
  have hbefore : s.ready.length = rest.length + 1 := by rw [hready, List.length_cons]
  simp only [State.work, hlength, hdone, hbefore, State.ahead, hcurrent]
  by_cases hsome : (s.waits wait).result.isSome = true
  · have hsame : ∀ other, ((s.tell rest wait read).waits other).result =
        (s.waits other).result := by
      intro other
      by_cases heq : other = wait
      · subst heq
        exact State.result_tell_of_isSome hsome
      · rw [State.waits_tell_of_ne heq]
    simp [Option.isNone_eq_false_iff.2 hsome, hsame]
  · have hwait := (hsound.heard wait read (hready ▸ List.mem_cons_self)).resolve_right hsome
    have hnone := Option.not_isSome_iff_eq_none.1 hsome
    simp only [hwait, hnone]
    cases ((s.tell rest wait read).waits wait).result.isSome <;> simp

theorem work_lt (hsound : s.Sound) (heffect : s.Effect move t)
    (hmove : move ≠ .interrupt) : t.work < s.work := by
  have hconclude : ∀ {rest : List Handle} (ending : Ending), s.ready = .resume :: rest →
      ((s.wake rest).conclude ending).work < s.work := by
    intro rest ending hready
    have hahead : ((s.wake rest).conclude ending).ahead = 0 := rfl
    have hsame : ((s.wake rest).conclude ending).ready = rest ∧
        ((s.wake rest).conclude ending).done = s.done := ⟨rfl, rfl⟩
    rw [State.work, State.work, hahead, hsame.1, hsame.2, hready, List.length_cons]
    omega
  cases heffect with
  | ended read outcome hrunning hasked =>
      exact work_finish hrunning (State.isRunning_finish_some outcome)
  | stopped read hrunning hasked => exact work_finish hrunning rfl
  | interrupted => exact absurd rfl hmove
  | told wait read rest hready => exact work_tell hsound hready
  | raised rest raised hready hplace hreceived =>
      -- The last wait brings a handle for each read that has ended; `ahead` drops by two at least.
      have hbefore : 4 ≤ s.ahead := by
        rw [State.ahead, State.current?, hplace]
        exact Nat.le_add_right _ _
      have hafter : ((s.wake rest).clean raised).ahead ≤ 2 := by
        have hcurrent : ((s.wake rest).clean raised).current? = some .last := rfl
        simp only [State.ahead, hcurrent, reduceCtorEq, if_false]
        split <;> decide
      have hle := s.length_done_le
      have hlength : ((s.wake rest).clean raised).ready.length = rest.length + s.done.length := by
        rw [State.ready_clean, List.length_append, List.length_map]
        rfl
      have hdone : ((s.wake rest).clean raised).done = s.done := rfl
      rw [State.work, State.work, hlength, hdone, hready, List.length_cons]
      omega
  | returned rest documents count hready hplace hreceived hpage hcount => exact hconclude _ hready
  | cleaned rest first raised hready hplace hreceived => exact hconclude _ hready
  | idle rest hready hcurrent =>
      obtain ⟨ending, hplace⟩ := State.exists_ended hcurrent
      rw [← State.conclude_wake hplace rest]
      exact hconclude _ hready

/-- If a pair is not at rest, the loop has something to do. -/
theorem exists_internal (h : ¬ s.Settled) : ∃ move t, move.IsInternal ∧ s.step? move = some t := by
  cases hready : s.ready with
  | cons handle rest =>
      cases handle with
      | tell wait read => exact ⟨.turn, _, trivial, by simp only [State.step?, hready]; rfl⟩
      | resume => exact ⟨.turn, _, trivial, by simp only [State.step?, hready]; rfl⟩
  | nil =>
      simp only [State.Settled, hready, true_and, not_forall, Bool.not_eq_false] at h
      obtain ⟨read, hrunning, hasked⟩ := h
      exact ⟨.stops read, _, trivial, by simp [State.step?, hrunning, hasked]; rfl⟩

/-- Without anything from outside, a pair comes to rest. -/
theorem Runs.exists_settled (h : Runs moves s) :
    ∃ after t, (∀ move ∈ after, move.IsInternal) ∧ s.run? after = some t ∧ t.Settled := by
  -- Every move of the loop leaves less work, whichever it is.
  induction hwork : s.work using Nat.strongRecOn generalizing moves s with
  | _ work ih =>
      subst hwork
      by_cases hsettled : s.Settled
      · exact ⟨[], s, by simp, rfl, hsettled⟩
      · obtain ⟨move, t, hinternal, hstep⟩ := exists_internal hsettled
        have hless : t.work < s.work := by
          refine work_lt h.sound.1 (h.effect hstep) ?_
          rintro rfl
          exact hinternal
        obtain ⟨after, last, hall, hruns, hrest⟩ := ih t.work hless (h.move hstep) rfl
        refine ⟨move :: after, last, List.forall_mem_cons.2 ⟨hinternal, hall⟩, ?_, hrest⟩
        rw [State.run?, hstep, Option.bind_some, hruns]

/-! ## Endings -/

theorem endingOf_eq_ok_iff {documents found : List Value} {total : Value} {count : Int} :
    endingOf found total = .ok (documents, count) ↔
      found = documents ∧ countOf total = .ok count := by
  unfold endingOf
  cases countOf total <;> simp

theorem endingOf_eq_fault_iff {found : List Value} {total : Value} {fault : ReadFault} :
    endingOf found total = .error (.fault fault) ↔ countOf total = .error fault := by
  unfold endingOf
  cases countOf total <;> simp

theorem endingOf_ne_cancelled (found : List Value) (total : Value) :
    endingOf found total ≠ .error .cancelled := by
  unfold endingOf
  cases countOf total <;> simp

/-- At rest, a pair that has been interrupted and was heard has been cancelled. -/
theorem Runs.cancelled_of_heard (h : Runs moves s) (hsettled : s.Settled) (hheard : Heard moves) :
    s.place = .ended (.error .cancelled) := by
  rcases h.ended_or_waits hsettled with ⟨ending, hended⟩ | ⟨-, hnone, -⟩
  · have hcurrent := State.current?_of_ended hended
    cases h.pressed hheard with
    | due _ hsome => exact absurd hcurrent hsome
    | asked hnone =>
        have hplace := h.sound.1.reading_of_result_eq_none hnone
        cases hplace.symm.trans hended
    | given wait hwait => cases hcurrent.symm.trans hwait
    | cleaning hplace => cases hplace.symm.trans hended
    | last hlast => cases hcurrent.symm.trans hlast
    | ended hplace => exact hplace
  · exact absurd hheard.mem hnone

/-- At rest, a pair with both answers has ended as they say, if nothing has interrupted it. -/
theorem Runs.answered (h : Runs moves s) (hsettled : s.Settled) {documents : List Value}
    {total : Value} (hpage : s.reads .page = .succeeded documents)
    (hcount : s.reads .count = .succeeded total) (hinterrupt : .interrupt ∉ moves) :
    s.place = .ended (endingOf documents total) := by
  rcases h.ended_or_waits hsettled with ⟨ending, hended⟩ | ⟨-, -, ⟨read, hrunning⟩, -⟩
  · cases h.traced.ended ending hended with
    | answered _ _ hpage' hcount' =>
        cases hpage.symm.trans hpage'
        cases hcount.symm.trans hcount'
        exact hended
    | raised raised hcause =>
        cases raised with
        | cancelled => exact absurd (Heard.mem hcause) hinterrupt
        | fault fault =>
            rw [Cause, h.faults_eq_nil hpage hcount] at hcause
            cases hcause
  · have hstate := reads_eq_running hrunning
    cases read with
    | page => cases hpage.symm.trans hstate
    | count => cases hcount.symm.trans hstate

/-- At rest, a pair in which a read has failed raises what came first, unless an interruption was
heard. -/
theorem Runs.failed (h : Runs moves s) (hsettled : s.Settled) {fault : ReadFault}
    (hfirst : (faults moves).head? = some fault) (hheard : ¬ Heard moves) :
    s.place = .ended (.error (.fault fault)) := by
  rcases h.ended_or_waits hsettled with ⟨ending, hended⟩ | ⟨hnone, -⟩
  · cases h.traced.ended ending hended with
    | answered _ _ hpage hcount =>
        rw [h.faults_eq_nil hpage hcount] at hfirst
        cases hfirst
    | raised raised hcause =>
        cases raised with
        | cancelled => exact absurd hcause hheard
        | fault other =>
            cases hfirst.symm.trans hcause
            exact hended
  · rw [hnone] at hfirst
    cases hfirst

/-- What is known of a pair of reads after any moves. -/
structure Concludes (moves : List Move) (s : State) : Prop where
  /-- Once the pair has ended, neither read is running. -/
  stopped : ∀ ending, s.place = .ended ending → ∀ read, s.isRunning read = false
  /-- The pair does not end without a reason. -/
  explained : ∀ ending, s.place = .ended ending → Explains moves s ending
  /-- It returns the documents with the count exactly if both reads succeed, the total comes to that
  count and nothing interrupts it. -/
  returns_iff : s.Settled → ∀ documents count, s.place = .ended (.ok (documents, count)) ↔
    ∃ total, s.reads .page = .succeeded documents ∧ s.reads .count = .succeeded total ∧
      countOf total = .ok count ∧ .interrupt ∉ moves
  /-- It raises a failure exactly if that came first among the reads and no interruption was heard,
  or if both reads succeed, the total comes to no count and nothing interrupts it. -/
  fails_iff : s.Settled → ∀ fault, s.place = .ended (.error (.fault fault)) ↔
    (faults moves).head? = some fault ∧ ¬ Heard moves ∨
      ∃ documents total, s.reads .page = .succeeded documents ∧
        s.reads .count = .succeeded total ∧ countOf total = .error fault ∧ .interrupt ∉ moves
  /-- It raises the interruption exactly if one was heard. -/
  interrupted_iff : s.Settled → (s.place = .ended (.error .cancelled) ↔ Heard moves)
  /-- It comes to rest without anything from outside. -/
  settles : ∃ after t, (∀ move ∈ after, move.IsInternal) ∧ s.run? after = some t ∧ t.Settled

/-- In any order of moves, a pair of reads ends as it should. -/
theorem Runs.concludes (h : Runs moves s) : Concludes moves s where
  stopped _ hended := h.isRunning_eq_false hended
  explained := h.traced.ended
  returns_iff hsettled documents count := by
    constructor
    · intro hended
      generalize hending : Except.ok (documents, count) = ending at hended
      cases h.traced.ended ending hended with
      | answered found total hpage hcount hinterrupt =>
          obtain ⟨rfl, hmade⟩ := endingOf_eq_ok_iff.1 hending.symm
          exact ⟨total, hpage, hcount, hmade, hinterrupt⟩
      | raised => cases hending
    · rintro ⟨total, hpage, hcount, hmade, hinterrupt⟩
      rw [h.answered hsettled hpage hcount hinterrupt, endingOf_eq_ok_iff.2 ⟨rfl, hmade⟩]
  fails_iff hsettled fault := by
    constructor
    · intro hended
      have hheard : ¬ Heard moves := by
        intro hheard
        cases hended.symm.trans (h.cancelled_of_heard hsettled hheard)
      generalize hending : Except.error (Raised.fault fault) = ending at hended
      cases h.traced.ended ending hended with
      | answered documents total hpage hcount hinterrupt =>
          have hmade := endingOf_eq_fault_iff.1 hending.symm
          exact .inr ⟨documents, total, hpage, hcount, hmade, hinterrupt⟩
      | raised raised hcause =>
          cases hending
          exact .inl ⟨hcause, hheard⟩
    · rintro (⟨hfirst, hheard⟩ | ⟨documents, total, hpage, hcount, hmade, hinterrupt⟩)
      · exact h.failed hsettled hfirst hheard
      · rw [h.answered hsettled hpage hcount hinterrupt, endingOf_eq_fault_iff.2 hmade]
  interrupted_iff hsettled := by
    refine ⟨fun hended => ?_, h.cancelled_of_heard hsettled⟩
    generalize hending : Except.error Raised.cancelled = ending at hended
    cases h.traced.ended ending hended with
    | answered documents total => exact absurd hending.symm (endingOf_ne_cancelled documents total)
    | raised raised hcause =>
        cases hending
        exact hcause
  settles := h.exists_settled

/-- The news of a failure can come before an interruption that has been made already, and the answers
of both reads may come to no count. -/
theorem lost_interruption_and_refused_count :
    (∃ s, Runs [.ends .count (.error (.refused "count failed")), .interrupt, .turn, .turn, .turn,
        .stops .page, .turn, .turn, .turn] s ∧
      s.Settled ∧ s.place = .ended (.error (.fault (.refused "count failed")))) ∧
    ∃ s, Runs [.ends .page (.ok []), .ends .count (.ok (.float .nan)), .turn, .turn, .turn] s ∧
      s.Settled ∧ s.place = .ended (.error (.fault (.crashed .nanCount))) := by
  refine ⟨⟨_, runs_iff.2 rfl, ⟨rfl, fun read => ?_⟩, rfl⟩,
    ⟨_, runs_iff.2 rfl, ⟨rfl, fun read => ?_⟩, rfl⟩⟩ <;> cases read <;> decide

end StageChain.ReadLoop
