import Mathlib.Data.List.Basic
import Mathlib.Data.List.Induction
import StageChain.Proofs.Source.Effects

/-!
# Why something is raised

Nothing is raised without a cause: a failure that came before every other and before any
interruption, or an interruption. `Traced` says of every part of a state what it is due to, and
`Runs.traced` that this holds after any moves.

Not every interruption is a cause. One that comes when a read has failed, but the first wait has not
been told of it, asks the other read to stop, if that is still running. The failure is what the wait
is told of first, and the interruption is lost: `State.Loses`. All other interruptions are `Heard`.
-/

namespace StageChain.ReadLoop

/-- The failures of reads before the pair is interrupted, in the order in which they come. -/
def faults : List Move → List ReadFault
  | [] => []
  | .interrupt :: _ => []
  | .ends _ (.error fault) :: moves => fault :: faults moves
  | _ :: moves => faults moves

/-- An interruption is lost that comes while the news of a failure is on its way to the first wait
and the other read is still running. -/
structure State.Loses (s : State) : Prop where
  untold : (s.waits .first).result = none
  failed : ∃ read fault, s.reads read = .failed fault
  running : ∃ read, s.isRunning read = true

/-- An interruption has come that was not lost. -/
def Heard (moves : List Move) : Prop :=
  ∃ before after s, moves = before ++ .interrupt :: after ∧ Runs before s ∧ ¬ s.Loses

/-- What has happened gives a reason to raise something: a failure that came first, or an
interruption that was not lost. -/
def Cause (moves : List Move) : Raised → Prop
  | .fault fault => (faults moves).head? = some fault
  | .cancelled => Heard moves

variable {moves : List Move} {move : Move} {s t : State} {raised : Raised} {wait : Wait}
  {read : ReadKind} {rest : List Handle}

theorem faults_append_of_mem (h : .interrupt ∈ moves) (more : List Move) :
    faults (moves ++ more) = faults moves := by
  fun_induction faults moves with
  | case1 => cases h
  | case2 => rfl
  | case3 read fault moves ih =>
      rw [List.cons_append, faults, ih ((List.mem_cons.1 h).resolve_left (by simp))]
  | case4 first moves hinterrupt hends ih =>
      have hmem := (List.mem_cons.1 h).resolve_left fun heq => hinterrupt heq.symm
      rw [List.cons_append, faults, ih hmem]
      · exact hinterrupt
      · exact hends

theorem faults_append_of_not_mem (h : .interrupt ∉ moves) (more : List Move) :
    faults (moves ++ more) = faults moves ++ faults more := by
  fun_induction faults moves with
  | case1 => rfl
  | case2 => exact absurd List.mem_cons_self h
  | case3 read fault moves ih =>
      rw [List.cons_append, faults, ih (fun hmem => h (List.mem_cons_of_mem _ hmem))]
      rfl
  | case4 first moves hinterrupt hends ih =>
      rw [List.cons_append, faults, ih (fun hmem => h (List.mem_cons_of_mem _ hmem))]
      · exact hinterrupt
      · exact hends

theorem Heard.mem (h : Heard moves) : .interrupt ∈ moves := by
  obtain ⟨before, after, s, rfl, -⟩ := h
  exact List.mem_append_right _ List.mem_cons_self

theorem Heard.append (h : Heard moves) (more : List Move) : Heard (moves ++ more) := by
  obtain ⟨before, after, s, rfl, hruns, hloses⟩ := h
  exact ⟨before, after ++ more, s, by simp, hruns, hloses⟩

/-- With one more move, an interruption has been heard if it had been before, or if the move is one
that is not lost. -/
theorem heard_append_iff (h : Runs moves s) :
    Heard (moves ++ [move]) ↔ Heard moves ∨ move = .interrupt ∧ ¬ s.Loses := by
  constructor
  · rintro ⟨before, after, t, hmoves, hruns, hloses⟩
    cases after using List.reverseRecOn with
    | nil =>
        obtain ⟨rfl, hlast⟩ := List.append_inj' hmoves rfl
        cases hlast
        cases h.unique hruns
        exact .inr ⟨rfl, hloses⟩
    | append_singleton after last =>
        rw [← List.cons_append, ← List.append_assoc] at hmoves
        obtain ⟨rfl, -⟩ := List.append_inj' hmoves rfl
        exact .inl ⟨before, after, t, rfl, hruns, hloses⟩
  · rintro (hheard | ⟨rfl, hloses⟩)
    · exact hheard.append _
    · exact ⟨moves, [], s, rfl, h, hloses⟩

/-- A reason stays one, whatever happens after it. -/
theorem Cause.append (h : Cause moves raised) (more : List Move) :
    Cause (moves ++ more) raised := by
  cases raised with
  | cancelled => exact Heard.append h more
  | fault fault =>
      by_cases hinterrupt : .interrupt ∈ moves
      · exact (congrArg List.head? (faults_append_of_mem hinterrupt more)).trans h
      · rw [Cause, faults_append_of_not_mem hinterrupt, List.head?_append, show _ = _ from h]
        rfl

/-- The failure that is raised, if it is one. -/
def Raised.fault? : Raised → Option ReadFault
  | .fault found => some found
  | .cancelled => none

/-- What a handle brings the first wait to raise. -/
def State.brought (s : State) : Handle → Option Raised
  | .tell .first read => raised? (s.reads read)
  | _ => none

/-- What the first wait has yet to be told of and would raise, in the order in which it will be
told. -/
def State.pending (s : State) : List Raised := s.ready.filterMap s.brought

/-- An ending has a reason: both answers are there and nothing has interrupted the pair, or what is
raised has a cause. -/
inductive Explains (moves : List Move) (s : State) : Ending → Prop where
  | answered (documents : List Value) (total : Value)
      (hpage : s.reads .page = .succeeded documents) (hcount : s.reads .count = .succeeded total)
      (hinterrupt : .interrupt ∉ moves) : Explains moves s (endingOf documents total)
  | raised (raised : Raised) (hcause : Cause moves raised) : Explains moves s (.error raised)

/-- What is due to what has happened. -/
structure Traced (moves : List Move) (s : State) : Prop where
  untold : (s.waits .first).result = none → s.pending.filterMap Raised.fault? = faults moves
  /-- A read that stops is the first news only if an interruption was heard. -/
  next : (s.waits .first).result = none → s.pending.head? = some .cancelled → Heard moves
  heeded : (s.waits .first).result = none → .interrupt ∈ moves →
    ∀ read, s.isRunning read = true → s.asked read = true
  raised : ∀ wait raised, (s.waits wait).result = some (.error raised) → Cause moves raised
  recalled : (s.waits .first).cancelled = true → ∃ read, s.asked read = true
  cancelled : (s.waits .last).cancelled = true → Heard moves
  mustCancel : s.mustCancel = true → Heard moves
  /-- Where a lost interruption has asked a read to stop, there is other news. -/
  asked : (s.waits .first).result = none → ∀ read, s.asked read = true →
    Heard moves ∨ s.pending ≠ []
  stopped : ∀ read, s.reads read = .cancelled → s.asked read = true
  pressed : s.place = .reading → .interrupt ∈ moves →
    s.mustCancel = true ∨ ∃ read, s.asked read = true
  cleaning : ∀ raised, s.place = .cleaning raised → Cause moves raised
  ended : ∀ ending, s.place = .ended ending → Explains moves s ending

theorem traced_start : Traced [] .start where
  untold _ := rfl
  next _ h := by cases h
  heeded _ h := by cases h
  raised _ _ h := by cases h
  recalled h := by cases h
  cancelled h := by cases h
  mustCancel h := by cases h
  asked _ _ h := by cases h
  stopped _ h := by cases h
  pressed _ h := by cases h
  cleaning _ h := by cases h
  ended _ h := by cases h

theorem interrupt_mem_append_iff (hmove : move ≠ .interrupt) :
    .interrupt ∈ moves ++ [move] ↔ .interrupt ∈ moves := by
  simp [hmove.symm]

/-- No handle tells of a read that is running, so its end changes none of the news that are on their
way. -/
theorem pending_finish (h : s.Sound) (hrunning : s.isRunning read = true)
    (hnone : (s.waits .first).result = none) (state : ReadState read.Answer) :
    (s.finish read state).pending = s.pending ++ (raised? state).toList := by
  have hlistening : s.listening = [.first] := by
    rw [State.listening, h.reading_of_result_eq_none hnone]
  have hready : (s.finish read state).ready = s.ready ++ [.tell .first read] := by
    simp [State.finish, hlistening]
  have hbrought : (s.finish read state).brought (.tell .first read) = raised? state := by
    simp [State.brought]
  have hkept : ∀ handle ∈ s.ready, (s.finish read state).brought handle = s.brought handle := by
    intro handle hmem
    cases handle with
    | resume => rfl
    | tell wait other =>
        cases wait with
        | last => rfl
        | first =>
            have hne : other ≠ read := by
              rintro rfl
              rw [h.telling .first other hmem] at hrunning
              cases hrunning
            simp [State.brought, State.reads_finish_of_ne hne]
  rw [State.pending, hready, List.filterMap_append, List.filterMap_congr hkept,
    List.filterMap_cons, hbrought]
  cases raised? state <;> rfl

theorem fault?_raised? {α : Type} (state : ReadState α) :
    (raised? state).toList.filterMap Raised.fault? = state.fault?.toList := by
  cases state <;> rfl

/-- A reason for an ending stays one while the reads stay as they are and nothing interrupts. -/
theorem Explains.append {ending : Ending} (h : Explains moves s ending) (hreads : t.reads = s.reads)
    (hmove : move ≠ .interrupt) : Explains (moves ++ [move]) t ending := by
  cases h with
  | answered documents total hpage hcount hinterrupt =>
      rw [← hreads] at hpage hcount
      exact .answered documents total hpage hcount (mt (interrupt_mem_append_iff hmove).1 hinterrupt)
  | raised raised hcause => exact .raised raised (hcause.append [move])

theorem Traced.finish (h : Traced moves s) (hsound : s.Sound) (hrunning : s.isRunning read = true)
    {state : ReadState read.Answer} (hstate : state.isRunning = false) (hmove : move ≠ .interrupt)
    (hfaults : (s.waits .first).result = none →
      faults (moves ++ [move]) = faults moves ++ state.fault?.toList)
    (hstopped : state = .cancelled → s.asked read = true) :
    Traced (moves ++ [move]) (s.finish read state) where
  untold hnone := by
    rw [pending_finish hsound hrunning hnone, List.filterMap_append, h.untold hnone,
      fault?_raised?, hfaults hnone]
  next hnone hnext := by
    rw [pending_finish hsound hrunning hnone] at hnext
    refine Heard.append ?_ _
    cases hpending : s.pending with
    | cons first more =>
        rw [hpending] at hnext
        exact h.next hnone (hpending ▸ hnext)
    | nil =>
        rw [hpending, List.nil_append] at hnext
        -- Without other news, the read was asked to stop by an interruption that was heard.
        have hcancelled : state = .cancelled := by
          cases state <;> first | rfl | cases hnext
        exact (h.asked hnone read (hstopped hcancelled)).resolve_right fun hne => hne hpending
  heeded hnone hinterrupt other hother := by
    rw [State.isRunning_finish hstate, Bool.and_eq_true] at hother
    exact h.heeded hnone ((interrupt_mem_append_iff hmove).1 hinterrupt) other hother.1
  raised wait raised hresult := (h.raised wait raised hresult).append [move]
  recalled := h.recalled
  cancelled hcancelled := (h.cancelled hcancelled).append _
  mustCancel hcancel := (h.mustCancel hcancel).append _
  asked hnone other hasked := by
    rw [pending_finish hsound hrunning hnone]
    refine (h.asked hnone other hasked).imp (·.append _) fun hne hempty => hne ?_
    exact (List.append_eq_nil_iff.1 hempty).1
  stopped other hother := by
    by_cases hsame : other = read
    · subst hsame
      exact hstopped (by rwa [State.reads_finish_self] at hother)
    · rw [State.reads_finish_of_ne hsame] at hother
      exact h.stopped other hother
  pressed hplace hinterrupt := h.pressed hplace ((interrupt_mem_append_iff hmove).1 hinterrupt)
  cleaning raised hplace := (h.cleaning raised hplace).append [move]
  ended ending hplace := by
    rw [hsound.ended (State.current?_of_ended hplace) read] at hrunning
    cases hrunning

/-- A move that is no failure adds none. -/
theorem faults_append_of_nil (hmove : faults [move] = []) (moves : List Move) :
    faults (moves ++ [move]) = faults moves := by
  by_cases hinterrupt : .interrupt ∈ moves
  · exact faults_append_of_mem hinterrupt _
  · rw [faults_append_of_not_mem hinterrupt, hmove, List.append_nil]

/-! ### Interruptions -/

/-- An interruption leaves the reads, the handles and the results of the waits as they are. -/
theorem interrupt_same (s : State) (wait : Wait) :
    (s.interrupt wait).reads = s.reads ∧ (s.interrupt wait).ready = s.ready ∧
      (s.interrupt wait).place = s.place ∧
        ∀ other, ((s.interrupt wait).waits other).result = (s.waits other).result := by
  unfold State.interrupt
  split
  · exact ⟨rfl, rfl, rfl, fun other => (s.askAll.cancelWait_same wait other).2⟩
  · exact ⟨rfl, rfl, rfl, fun _ => rfl⟩

theorem asked_interrupt (wait : Wait) (hasked : s.asked read = true) :
    (s.interrupt wait).asked read = true := by
  unfold State.interrupt
  split
  · simp [State.cancelWait, State.askAll, hasked]
  · exact hasked

/-- If a read has not ended, it is running. -/
theorem exists_running (h : s.done.length < 2) : ∃ read, s.isRunning read = true := by
  by_contra hnone
  rw [not_exists] at hnone
  have hall := State.length_done_eq_two_iff.2 fun read => Bool.eq_false_iff.2 (hnone read)
  omega

theorem pressed_interrupt (s : State) (wait : Wait) :
    (s.interrupt wait).mustCancel = true ∨ ∃ read, (s.interrupt wait).asked read = true := by
  unfold State.interrupt
  split
  · rename_i hopen
    simp only [Bool.and_eq_true, decide_eq_true_eq] at hopen
    obtain ⟨read, hrunning⟩ := exists_running hopen.2
    exact .inr ⟨read, by simp [State.cancelWait, State.askAll, hrunning]⟩
  · exact .inl rfl

/-- While its wait goes on, an interruption asks every read that is running to stop. -/
theorem heeded_interrupt (hnone : (s.waits wait).result = none)
    (hrunning : s.isRunning read = true) : (s.interrupt wait).asked read = true := by
  have hless : s.done.length < 2 := by
    have hle := s.length_done_le
    have hnot : s.done.length ≠ 2 := by
      intro htwo
      rw [State.length_done_eq_two_iff.1 htwo read] at hrunning
      cases hrunning
    omega
  rw [State.interrupt, if_pos (by simp [hnone, hless])]
  simp [State.cancelWait, State.askAll, hrunning]

theorem pending_interrupt (s : State) (wait : Wait) : (s.interrupt wait).pending = s.pending := by
  obtain ⟨hreads, hready, -⟩ := interrupt_same s wait
  have hbrought : (s.interrupt wait).brought = s.brought := by
    funext handle
    unfold State.brought
    rw [hreads]
  rw [State.pending, State.pending, hbrought, hready]

/-- A wait can be cancelled only while a read is running, and that is asked to stop. -/
theorem recalled_interrupt
    (h : (s.waits .first).cancelled = true → ∃ read, s.asked read = true)
    (hcancelled : ((s.interrupt wait).waits .first).cancelled = true) :
    ∃ read, (s.interrupt wait).asked read = true := by
  by_cases hopen : ((s.waits wait).result.isNone && s.done.length < 2) = true
  · have hless := hopen
    simp only [Bool.and_eq_true, decide_eq_true_eq] at hless
    obtain ⟨read, hrunning⟩ := exists_running hless.2
    rw [State.interrupt, if_pos hopen]
    exact ⟨read, by simp [State.cancelWait, State.askAll, hrunning]⟩
  · rw [State.interrupt, if_neg hopen] at hcancelled ⊢
    exact h hcancelled

/-- A lost interruption is one of the first wait, and it asks the read that is running to stop. -/
theorem State.Loses.interrupt_eq (h : s.Loses) (hsound : s.Sound)
    (hcurrent : s.current? = some wait) :
    wait = .first ∧ s.interrupt wait = s.askAll.cancelWait .first := by
  have hfirst := State.current?_of_reading (hsound.reading_of_result_eq_none h.untold)
  cases hcurrent.symm.trans hfirst
  obtain ⟨read, hrunning⟩ := h.running
  have hless : s.done.length < 2 := by
    have hle := s.length_done_le
    have hnot := mt State.length_done_eq_two_iff.1 fun hall => by
      rw [hall read] at hrunning
      cases hrunning
    omega
  exact ⟨rfl, if_pos (by simp [h.untold, hless])⟩

/-- When an interruption is lost, the failure is among the news. -/
theorem State.Loses.pending_ne_nil (h : s.Loses) (hsound : s.Sound) : s.pending ≠ [] := by
  obtain ⟨read, fault, hfailed⟩ := h.failed
  have hended : s.isRunning read = false := by rw [State.isRunning, hfailed]; rfl
  have hbrought : s.brought (.tell .first read) = some (.fault fault) := by
    rw [State.brought, hfailed]
    rfl
  rcases hsound.unheard h.untold read hended with hmem | hquiet
  · exact List.ne_nil_of_mem (List.mem_filterMap.2 ⟨_, hmem, hbrought⟩)
  · rw [hfailed] at hquiet
    cases hquiet

theorem Traced.interrupt (h : Traced moves s) (hruns : Runs moves s)
    (hcurrent : s.current? = some wait) : Traced (moves ++ [.interrupt]) (s.interrupt wait) := by
  have hsound := hruns.sound.1
  have hheard : ¬ s.Loses → Heard (moves ++ [.interrupt]) := fun hloses =>
    (heard_append_iff hruns).2 (.inr ⟨rfl, hloses⟩)
  obtain ⟨hreads, hready, hplace, hresult⟩ := interrupt_same s wait
  exact {
    untold := by
      intro hnone
      rw [hresult] at hnone
      rw [faults_append_of_nil rfl, pending_interrupt]
      exact h.untold hnone
    next := by
      intro hnone hnext
      rw [hresult] at hnone
      rw [pending_interrupt] at hnext
      exact (h.next hnone hnext).append _
    heeded := by
      intro hnone _ read hrunning
      rw [hresult] at hnone
      rw [State.isRunning, hreads] at hrunning
      have hfirst := State.current?_of_reading (hsound.reading_of_result_eq_none hnone)
      cases hcurrent.symm.trans hfirst
      exact heeded_interrupt hnone hrunning
    raised := by
      intro other raised hraised
      rw [hresult] at hraised
      exact (h.raised other raised hraised).append _
    recalled := recalled_interrupt h.recalled
    cancelled := by
      intro hcancelled
      by_cases hloses : s.Loses
      · rw [(hloses.interrupt_eq hsound hcurrent).2] at hcancelled
        exact (h.cancelled hcancelled).append _
      · exact hheard hloses
    mustCancel := by
      intro hcancel
      by_cases hloses : s.Loses
      · rw [(hloses.interrupt_eq hsound hcurrent).2] at hcancel
        exact (h.mustCancel hcancel).append _
      · exact hheard hloses
    asked := by
      intro _ _ _
      rw [pending_interrupt]
      by_cases hloses : s.Loses
      · exact .inr (hloses.pending_ne_nil hsound)
      · exact .inl (hheard hloses)
    stopped := fun read hstopped => asked_interrupt wait (h.stopped read (hreads ▸ hstopped))
    pressed := fun _ _ => pressed_interrupt s wait
    cleaning := fun raised hcleaning => (h.cleaning raised (hplace ▸ hcleaning)).append _
    ended := by
      intro ending hended
      cases hcurrent.symm.trans (State.current?_of_ended (hplace ▸ hended)) }

/-! ### What waits are told of -/

theorem raised?_of_isRunning {α : Type} {state : ReadState α} (h : state.isRunning = true) :
    raised? state = none := by
  cases state with
  | running => rfl
  | succeeded value | failed fault | cancelled => cases h

theorem pending_tell (hready : s.ready = .tell wait read :: rest) :
    s.pending = (s.brought (.tell wait read)).toList ++ (s.tell rest wait read).pending := by
  have hresume : ∀ added : Bool,
      (if added then [Handle.resume] else []).filterMap s.brought = [] := by
    intro added
    cases added <;> rfl
  have hrest : (s.tell rest wait read).pending = rest.filterMap s.brought := by
    rw [State.pending, State.ready_tell, List.filterMap_append]
    exact (congrArg _ (hresume _)).trans (List.append_nil _)
  rw [hrest, State.pending, hready, List.filterMap_cons]
  cases s.brought (.tell wait read) <;> rfl

theorem cancelled_tell (s : State) (rest : List Handle) (wait other : Wait) (read : ReadKind) :
    ((s.tell rest wait read).waits other).cancelled = (s.waits other).cancelled := by
  by_cases hsame : other = wait
  · subst hsame
    rw [State.waits_tell_self]
    rfl
  · rw [State.waits_tell_of_ne hsame]

/-- What the first wait is told of is a reason to raise it. -/
theorem Traced.cause_of_raised? (h : Traced moves s)
    (hnone : (s.waits .first).result = none) (hready : s.ready = .tell .first read :: rest)
    (hraised : raised? (s.reads read) = some raised) : Cause moves raised := by
  have hpending := pending_tell hready
  rw [State.brought, hraised, Option.toList_some, List.singleton_append] at hpending
  cases raised with
  | cancelled => exact h.next hnone (by rw [hpending, List.head?_cons])
  | fault fault =>
      rw [Cause, ← h.untold hnone, hpending]
      rfl

/-- While the first wait goes on, it was told nothing that it would raise. -/
theorem pending_tell_of_none (hready : s.ready = .tell wait read :: rest)
    (hnone : ((s.tell rest wait read).waits .first).result = none) :
    (s.tell rest wait read).pending = s.pending := by
  have hopen := State.result_eq_none_of_tell hnone
  have hbrought : s.brought (.tell wait read) = none := by
    cases wait with
    | last => rfl
    | first =>
        cases State.result_tell hopen rest read with
        | raised _ _ hresult | whole _ _ hresult => cases hnone.symm.trans hresult
        | waits hquiet => exact hquiet rfl
  rw [pending_tell hready, hbrought]
  rfl

/-- A read that was asked to stop has not ended quietly. -/
theorem not_quiet_of_asked (hsound : s.Sound) (hasked : s.asked read = true) :
    ¬ (s.isRunning read = false ∧ raised? (s.reads read) = none) := by
  rintro ⟨hended, hquiet⟩
  rcases hsound.asked read hasked with hrunning | hstopped
  · rw [hended] at hrunning
    cases hrunning
  · rw [hstopped] at hquiet
    cases hquiet

theorem Traced.raised_tell (h : Traced moves s) (hsound : s.Sound)
    (hready : s.ready = .tell wait read :: rest) {other : Wait}
    (hresult : ((s.tell rest wait read).waits other).result = some (.error raised)) :
    Cause moves raised := by
  by_cases hsome : (s.waits other).result.isSome = true
  · rw [State.result_tell_of_isSome hsome] at hresult
    exact h.raised other raised hresult
  have hnone := Option.not_isSome_iff_eq_none.1 hsome
  by_cases hsame : other = wait
  · subst hsame
    cases State.result_tell hnone rest read with
    | raised hfirst hraised htold =>
        subst hfirst
        cases hresult.symm.trans htold
        exact h.cause_of_raised? hnone hready hraised
    | whole hquiet hone htold =>
        have hwhole := hresult.symm.trans htold
        split at hwhole
        · rename_i hcancelled
          cases hwhole
          cases other with
          | last => exact h.cancelled hcancelled
          | first =>
              obtain ⟨kind, hasked⟩ := h.recalled hcancelled
              have hquiet := hsound.quiet_of_whole hready hnone (hquiet rfl) hone kind
              exact absurd hquiet (not_quiet_of_asked hsound hasked)
        · cases hwhole
    | waits _ _ htold => cases hresult.symm.trans htold
  · rw [State.waits_tell_of_ne hsame] at hresult
    cases hnone.symm.trans hresult

theorem Traced.tell (h : Traced moves s) (hsound : s.Sound)
    (hready : s.ready = .tell wait read :: rest) :
    Traced (moves ++ [.turn]) (s.tell rest wait read) where
  untold hnone := by
    rw [faults_append_of_nil rfl, pending_tell_of_none hready hnone]
    exact h.untold (State.result_eq_none_of_tell hnone)
  next hnone hnext := by
    rw [pending_tell_of_none hready hnone] at hnext
    exact (h.next (State.result_eq_none_of_tell hnone) hnext).append _
  heeded hnone hinterrupt := h.heeded (State.result_eq_none_of_tell hnone)
    ((interrupt_mem_append_iff (by simp)).1 hinterrupt)
  raised _ _ hresult := (h.raised_tell hsound hready hresult).append _
  recalled hcancelled := h.recalled (by rwa [cancelled_tell] at hcancelled)
  cancelled hcancelled := (h.cancelled (by rwa [cancelled_tell] at hcancelled)).append _
  mustCancel hcancel := (h.mustCancel hcancel).append _
  asked hnone other hasked := by
    rw [pending_tell_of_none hready hnone]
    exact (h.asked (State.result_eq_none_of_tell hnone) other hasked).imp_left (·.append _)
  stopped := h.stopped
  pressed hplace hinterrupt :=
    h.pressed hplace ((interrupt_mem_append_iff (by simp)).1 hinterrupt)
  cleaning raised hplace := (h.cleaning raised hplace).append _
  ended ending hplace := (h.ended ending hplace).append rfl (by simp)

/-! ### What the task goes on with -/

/-- What a resumed task gets is a reason to raise it. -/
theorem Traced.cause_of_received (h : Traced moves s)
    (hreceived : s.received? = some (.error raised)) : Cause moves raised := by
  unfold State.received? at hreceived
  split at hreceived
  · rename_i hcancel
    cases hreceived
    exact h.mustCancel hcancel
  · obtain ⟨wait, -, hresult⟩ := Option.bind_eq_some_iff.1 hreceived
    exact h.raised wait raised hresult

theorem Traced.clean (h : Traced moves s) (hresult : (s.waits .first).result ≠ none)
    (rest : List Handle) (hcause : Cause moves raised) :
    Traced (moves ++ [.turn]) ((s.wake rest).clean raised) where
  untold hnone := absurd hnone hresult
  next hnone := absurd hnone hresult
  heeded hnone := absurd hnone hresult
  raised wait raised hresult := (h.raised wait raised hresult).append _
  recalled hcancelled := by
    obtain ⟨read, hasked⟩ := h.recalled hcancelled
    exact ⟨read, by simp [State.clean, State.askAll, State.wake, hasked]⟩
  cancelled hcancelled := (h.cancelled hcancelled).append _
  mustCancel hcancel := by cases hcancel
  asked hnone := absurd hnone hresult
  stopped read hstopped := by
    have hasked : s.asked read = true := h.stopped read hstopped
    simp [State.clean, State.askAll, State.wake, hasked]
  pressed hplace := by cases hplace
  cleaning other hplace := by
    cases hplace
    exact hcause.append _
  ended ending hplace := by cases hplace

theorem Traced.conclude (h : Traced moves s) (hresult : (s.waits .first).result ≠ none)
    (rest : List Handle) {ending : Ending} (hexplains : Explains moves s ending) :
    Traced (moves ++ [.turn]) ((s.wake rest).conclude ending) where
  untold hnone := absurd hnone hresult
  next hnone := absurd hnone hresult
  heeded hnone := absurd hnone hresult
  raised wait raised hresult := (h.raised wait raised hresult).append _
  recalled := h.recalled
  cancelled hcancelled := (h.cancelled hcancelled).append _
  mustCancel hcancel := by cases hcancel
  asked hnone := absurd hnone hresult
  stopped := h.stopped
  pressed hplace := by cases hplace
  cleaning other hplace := by cases hplace
  ended other hplace := by
    cases hplace
    exact hexplains.append rfl (by simp)

/-- The answers are returned only if nothing has interrupted the pair. -/
theorem Traced.not_interrupted (h : Traced moves s) (hsound : s.Sound) (hplace : s.place = .reading)
    (hcancel : s.mustCancel = false) (hresult : (s.waits .first).result = some (.ok ())) :
    .interrupt ∉ moves := by
  intro hinterrupt
  rcases h.pressed hplace hinterrupt with hmust | ⟨read, hasked⟩
  · rw [hcancel] at hmust
    cases hmust
  · -- A read that was asked to stop has stopped, and the wait would have raised that.
    exact not_quiet_of_asked hsound hasked (hsound.answered hresult read)

theorem State.exists_ended (h : s.current? = none) : ∃ ending, s.place = .ended ending := by
  cases hplace : s.place with
  | reading => cases h.symm.trans (State.current?_of_reading hplace)
  | cleaning raised => cases h.symm.trans (State.current?_of_cleaning hplace)
  | ended ending => exact ⟨ending, rfl⟩

theorem State.conclude_wake {ending : Ending} (h : s.place = .ended ending) (rest : List Handle) :
    (s.wake rest).conclude ending = s.wake rest := by
  simp [State.conclude, State.wake, h]

/-- Every move keeps what is due to what has happened. -/
theorem traced_of_effect (h : Traced moves s) (hruns : Runs moves s)
    (heffect : s.Effect move t) : Traced (moves ++ [move]) t := by
  obtain ⟨hsound, hresumed⟩ := hruns.sound
  cases heffect with
  | ended read outcome hrunning hasked =>
      have hended := State.isRunning_finish_some outcome
      refine h.finish hsound hrunning hended (by simp) (fun hnone => ?_) (fun hstopped => ?_)
      · -- A read that was not asked to stop ends before any interruption, so its failure counts.
        have hinterrupt : .interrupt ∉ moves := by
          intro hinterrupt
          rw [h.heeded hnone hinterrupt read hrunning] at hasked
          cases hasked
        rw [faults_append_of_not_mem hinterrupt]
        cases outcome <;> rfl
      · cases outcome <;> cases hstopped
  | stopped read hrunning hasked =>
      refine h.finish hsound hrunning rfl (by simp) (fun _ => ?_) fun _ => hasked
      rw [faults_append_of_nil rfl]
      exact (List.append_nil _).symm
  | interrupted wait hcurrent => exact h.interrupt hruns hcurrent
  | told wait read rest hready => exact h.tell hsound hready
  | raised rest raised hready hplace hreceived =>
      have hcurrent : s.current? = some .first := State.current?_of_reading hplace
      have hresult := Option.isSome_iff_ne_none.1 (hresumed.result_isSome hready hcurrent)
      exact h.clean hresult rest (h.cause_of_received hreceived)
  | returned rest documents total hready hplace hreceived hpage hcount =>
      have hcurrent : s.current? = some .first := State.current?_of_reading hplace
      obtain ⟨hcancel, hresult⟩ := State.received?_eq_ok hreceived hcurrent
      refine h.conclude (by simp [hresult]) rest (.answered documents total hpage hcount ?_)
      exact h.not_interrupted hsound hplace hcancel hresult
  | cleaned rest first raised hready hplace hreceived =>
      have hresult := Option.isSome_iff_ne_none.1 (hsound.left (by rw [hplace]; simp)).1
      refine h.conclude hresult rest (.raised raised ?_)
      rcases hreceived with ⟨-, rfl⟩ | hraised
      · exact h.cleaning raised hplace
      · exact h.cause_of_received hraised
  | idle rest hready hcurrent =>
      -- To conclude as it has ended changes nothing, so this is a case of `Traced.conclude`.
      obtain ⟨ending, hplace⟩ := State.exists_ended hcurrent
      rw [← State.conclude_wake hplace rest]
      have hresult := Option.isSome_iff_ne_none.1 (hsound.left (by rw [hplace]; simp)).1
      exact h.conclude hresult rest (h.ended ending hplace)

theorem Runs.traced (h : Runs moves s) : Traced moves s := by
  induction h with
  | start => exact traced_start
  | move hruns hstep ih =>
      exact traced_of_effect ih hruns (hruns.effect hstep)

end StageChain.ReadLoop
