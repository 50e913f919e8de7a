import StageChain.Proofs.Source.Causes

/-!
# What an interruption comes to

An interruption that is heard ends the pair, and nothing that comes after it changes that. It takes a
way to do so: reads are asked to stop, a wait is told that they have, and the task goes on with what
the wait gives it. `State.Pressed` has the places on that way, and `Runs.pressed` says that after an
interruption that was heard the pair is at one of them.
-/

namespace StageChain.ReadLoop

variable {moves : List Move} {move : Move} {s t : State} {raised : Raised} {wait : Wait}
  {read : ReadKind} {rest : List Handle}

/-- The pair has been interrupted, and the interruption is on its way to end it or has done so. -/
inductive State.Pressed (s : State) : Prop where
  /-- The task is cancelled as soon as it is resumed. -/
  | due (hcancel : s.mustCancel = true) (hcurrent : s.current? ≠ none)
  /-- All reads that are running have been asked to stop, and there is nothing else that the first
  wait could raise. -/
  | asked (hresult : (s.waits .first).result = none) (hsome : ∃ read, s.asked read = true)
      (hall : ∀ read, s.isRunning read = true → s.asked read = true)
      (hfailed : ∀ read fault, s.reads read ≠ .failed fault)
  /-- The wait that the task is in gives it the cancellation. -/
  | given (wait : Wait) (hcurrent : s.current? = some wait)
      (hresult : (s.waits wait).result = some (.error .cancelled))
  /-- The cancellation has been raised in the first wait. -/
  | cleaning (hplace : s.place = .cleaning .cancelled)
  /-- The last wait was cancelled while a read was running. -/
  | last (hcurrent : s.current? = some .last) (hresult : (s.waits .last).result = none)
      (hcancelled : (s.waits .last).cancelled = true)
  | ended (hplace : s.place = .ended (.error .cancelled))

/-- An interruption that is not lost is on its way. -/
theorem pressed_of_interrupt (hcurrent : s.current? = some wait) (hloses : ¬ s.Loses) :
    (s.interrupt wait).Pressed := by
  by_cases hopen : ((s.waits wait).result.isNone && s.done.length < 2) = true
  · have hless := hopen
    simp only [Bool.and_eq_true, Option.isNone_iff_eq_none, decide_eq_true_eq] at hless
    obtain ⟨hnone, hless⟩ := hless
    obtain ⟨read, hrunning⟩ := exists_running hless
    obtain ⟨hreads, -, hplace, hresult⟩ := interrupt_same s wait
    cases wait with
    | first =>
        have hfailed : ∀ read fault, s.reads read ≠ .failed fault := fun other fault hother =>
          hloses ⟨hnone, ⟨other, fault, hother⟩, ⟨read, hrunning⟩⟩
        refine .asked ((hresult .first).trans hnone) ⟨read, heeded_interrupt hnone hrunning⟩
          (fun other hother => ?_) (hreads ▸ hfailed)
        rw [State.isRunning, hreads] at hother
        exact heeded_interrupt hnone hother
    | last =>
        refine .last ?_ ((hresult .last).trans hnone) ?_
        · rwa [State.current?, hplace]
        · rw [State.interrupt, if_pos hopen]
          simp [State.cancelWait]
  · refine .due ?_ ?_ <;> rw [State.interrupt, if_neg hopen]
    exact ne_of_eq_of_ne hcurrent (by simp)

/-- Another interruption, lost or not, takes none back. -/
theorem State.Pressed.interrupt (h : s.Pressed) (wait : Wait) : (s.interrupt wait).Pressed := by
  obtain ⟨hreads, -, hplace, hresult⟩ := interrupt_same s wait
  have hcurrent : (s.interrupt wait).current? = s.current? := by
    rw [State.current?, State.current?, hplace]
  have hrunning : (s.interrupt wait).isRunning = s.isRunning := by
    funext read
    rw [State.isRunning, State.isRunning, hreads]
  cases h with
  | due hcancel hsome =>
      refine .due ?_ (hcurrent ▸ hsome)
      unfold State.interrupt
      split
      · exact hcancel
      · rfl
  | asked hnone hsome hall hfailed =>
      obtain ⟨read, hasked⟩ := hsome
      refine .asked ((hresult .first).trans hnone) ⟨read, asked_interrupt wait hasked⟩ ?_
        (hreads ▸ hfailed)
      intro other hother
      exact asked_interrupt wait (hall other (hrunning ▸ hother))
  | given current hcurrent' hgiven =>
      exact .given current (hcurrent.trans hcurrent') ((hresult current).trans hgiven)
  | cleaning hcleaning => exact .cleaning (hplace.trans hcleaning)
  | last hlast hnone hcancelled =>
      refine .last (hcurrent.trans hlast) ((hresult .last).trans hnone) ?_
      unfold State.interrupt
      split
      · by_cases hsame : .last = wait
        · simp [State.cancelWait, hsame]
        · simpa [State.cancelWait, hsame, State.askAll] using hcancelled
      · exact hcancelled
  | ended hended => exact .ended (hplace.trans hended)

/-- The end of a read takes no interruption back: a read that was asked to stop only stops. -/
theorem State.Pressed.finish (h : s.Pressed) {state : ReadState read.Answer}
    (hrunning : s.isRunning read = true) (hstate : state.isRunning = false)
    (hstopped : s.asked read = true → state = .cancelled) : (s.finish read state).Pressed := by
  cases h with
  | due hcancel hcurrent => exact .due hcancel hcurrent
  | asked hnone hsome hall hfailed =>
      refine .asked hnone hsome (fun other hother => ?_) fun other fault => ?_
      · rw [State.isRunning_finish hstate, Bool.and_eq_true] at hother
        exact hall other hother.1
      · by_cases hsame : other = read
        · subst hsame
          rw [State.reads_finish_self, hstopped (hall other hrunning)]
          simp
        · rw [State.reads_finish_of_ne hsame]
          exact hfailed other fault
  | given wait hcurrent hresult => exact .given wait hcurrent hresult
  | cleaning hplace => exact .cleaning hplace
  | last hcurrent hnone hcancelled => exact .last hcurrent hnone hcancelled
  | ended hplace => exact .ended hplace

/-- What the waits are told of takes no interruption back. -/
theorem State.Pressed.tell (h : s.Pressed) (hsound : s.Sound)
    (hready : s.ready = .tell wait read :: rest) : (s.tell rest wait read).Pressed := by
  cases h with
  | due hcancel hcurrent => exact .due hcancel hcurrent
  | asked hnone hsome hall hfailed =>
      cases wait with
      | last =>
          refine .asked ?_ hsome hall hfailed
          rwa [State.waits_tell_of_ne (by decide)]
      | first =>
          have hcurrent : s.current? = some .first :=
            State.current?_of_reading (hsound.reading_of_result_eq_none hnone)
          cases State.result_tell hnone rest read with
          | waits _ _ hresult => exact .asked hresult hsome hall hfailed
          | whole hquiet hone =>
              obtain ⟨kind, hasked⟩ := hsome
              have hended := hsound.quiet_of_whole hready hnone (hquiet rfl) hone kind
              exact absurd hended (not_quiet_of_asked hsound hasked)
          | raised _ hraised hresult =>
              refine .given .first hcurrent ?_
              cases hread : s.reads read with
              | failed fault => exact absurd hread (hfailed read fault)
              | running | succeeded =>
                  rw [hread] at hraised
                  cases hraised
              | cancelled =>
                  rw [hread] at hraised
                  cases hraised
                  exact hresult
  | given current hcurrent hresult =>
      refine .given current hcurrent ?_
      rwa [State.result_tell_of_isSome (by rw [hresult]; rfl)]
  | cleaning hplace => exact .cleaning hplace
  | last hcurrent hnone hcancelled =>
      have hstill : ((s.tell rest wait read).waits .last).cancelled = true := by
        rwa [cancelled_tell]
      cases wait with
      | first =>
          refine .last hcurrent ?_ hstill
          rwa [State.waits_tell_of_ne (by decide)]
      | last =>
          cases State.result_tell hnone rest read with
          | raised hfirst => cases hfirst
          | waits _ _ hresult => exact .last hcurrent hresult hstill
          | whole _ _ hresult =>
              rw [hcancelled] at hresult
              exact .given .last hcurrent hresult
  | ended hplace => exact .ended hplace

/-- When the task of an interrupted pair is resumed, it gets the cancellation or has got it. -/
theorem State.Pressed.received (h : s.Pressed) (hresumed : s.Resumed) (hsound : s.Sound)
    (hready : s.ready = .resume :: rest) (hcurrent : s.current? = some wait) :
    s.received? = some (.error .cancelled) ∨ s.place = .cleaning .cancelled := by
  have hsome := hresumed.result_isSome hready hcurrent
  cases h with
  | due hcancel => exact .inl (by rw [State.received?, if_pos hcancel])
  | asked hnone =>
      have hfirst := State.current?_of_reading (hsound.reading_of_result_eq_none hnone)
      cases hcurrent.symm.trans hfirst
      rw [hnone] at hsome
      cases hsome
  | given current hcurrent' hresult =>
      left
      unfold State.received?
      split
      · rfl
      · rw [hcurrent', Option.bind_some, hresult]
  | cleaning hplace => exact .inr hplace
  | last hlast hnone =>
      cases hcurrent.symm.trans hlast
      rw [hnone] at hsome
      cases hsome
  | ended hplace => cases hcurrent.symm.trans (State.current?_of_ended hplace)

/-- The last wait raises nothing but cancellations, since it takes failures for answers. -/
theorem Runs.raised_last (h : Runs moves s)
    (hresult : (s.waits .last).result = some (.error raised)) : raised = .cancelled := by
  induction h with
  | start => cases hresult
  | @move moves s t move hruns hstep ih =>
      cases hruns.effect hstep with
      | ended | stopped | raised | returned | cleaned | idle => exact ih hresult
      | interrupted wait => exact ih (((interrupt_same s wait).2.2.2 .last).symm.trans hresult)
      | told wait read rest hready =>
          by_cases hsome : (s.waits .last).result.isSome = true
          · exact ih ((State.result_tell_of_isSome hsome).symm.trans hresult)
          have hnone := Option.not_isSome_iff_eq_none.1 hsome
          cases wait with
          | first =>
              rw [State.waits_tell_of_ne (by decide), hnone] at hresult
              cases hresult
          | last =>
              cases State.result_tell hnone rest read with
              | raised hfirst => cases hfirst
              | waits _ _ hopen => cases hresult.symm.trans hopen
              | whole _ _ htold =>
                  have hwhole := hresult.symm.trans htold
                  split at hwhole <;> cases hwhole
                  rfl

/-- Every move leaves an interruption on its way. -/
theorem State.Pressed.of_effect (h : s.Pressed) (hruns : Runs moves s)
    (heffect : s.Effect move t) : t.Pressed := by
  obtain ⟨hsound, hresumed⟩ := hruns.sound
  cases heffect with
  | ended read outcome hrunning hasked =>
      refine h.finish hrunning (State.isRunning_finish_some outcome) fun hasks => ?_
      rw [hasked] at hasks
      cases hasks
  | stopped read hrunning _ => exact h.finish hrunning rfl fun _ => rfl
  | interrupted wait _ => exact h.interrupt wait
  | told wait read rest hready => exact h.tell hsound hready
  | raised rest raised hready hplace hreceived =>
      have hcurrent : s.current? = some .first := State.current?_of_reading hplace
      rcases h.received hresumed hsound hready hcurrent with hcancelled | hcleaning
      · cases hreceived.symm.trans hcancelled
        exact .cleaning rfl
      · cases hplace.symm.trans hcleaning
  | returned rest documents total hready hplace hreceived =>
      have hcurrent : s.current? = some .first := State.current?_of_reading hplace
      rcases h.received hresumed hsound hready hcurrent with hcancelled | hcleaning
      · cases hreceived.symm.trans hcancelled
      · cases hplace.symm.trans hcleaning
  | cleaned rest first raised hready hplace hreceived =>
      have hcurrent : s.current? = some .last := State.current?_of_cleaning hplace
      refine .ended (congrArg (Place.ended ∘ Except.error) ?_)
      rcases h.received hresumed hsound hready hcurrent with hcancelled | hcleaning
      · rcases hreceived with ⟨hok, -⟩ | hraised
        · cases hok.symm.trans hcancelled
        · cases hraised.symm.trans hcancelled
          rfl
      · cases hplace.symm.trans hcleaning
        rcases hreceived with ⟨-, rfl⟩ | hraised
        · rfl
        · unfold State.received? at hraised
          split at hraised
          · cases hraised
            rfl
          · rw [hcurrent, Option.bind_some] at hraised
            exact hruns.raised_last hraised
  | idle rest hready hcurrent =>
      cases h with
      | due _ hsome => exact absurd hcurrent hsome
      | asked hnone =>
          have hfirst := State.current?_of_reading (hsound.reading_of_result_eq_none hnone)
          cases hcurrent.symm.trans hfirst
      | given wait hwait => cases hcurrent.symm.trans hwait
      | cleaning hplace => cases hcurrent.symm.trans (State.current?_of_cleaning hplace)
      | last hlast => cases hcurrent.symm.trans hlast
      | ended hplace => exact .ended hplace

/-- An interruption that was heard is on its way to end the pair, or has done so. -/
theorem Runs.pressed (h : Runs moves s) (hheard : Heard moves) : s.Pressed := by
  induction h with
  | start =>
      obtain ⟨before, after, _, hnil, -⟩ := hheard
      exact absurd hnil (by simp)
  | @move moves s t move hruns hstep ih =>
      have heffect := hruns.effect hstep
      rcases (heard_append_iff hruns).1 hheard with hbefore | ⟨rfl, hloses⟩
      · exact (ih hbefore).of_effect hruns heffect
      · cases heffect with
        | interrupted wait hcurrent => exact pressed_of_interrupt hcurrent hloses

end StageChain.ReadLoop
