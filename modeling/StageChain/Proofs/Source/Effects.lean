import StageChain.Proofs.Source.Handles

/-!
# What a move does

`State.Effect` has one case for everything that a move can do to a pair of reads. From it follows
that every run keeps what holds of handles and waits, and that a pair that has ended leaves no read
running: `Runs.isRunning_eq_false`.
-/

namespace StageChain.ReadLoop

namespace State

variable {s t : State} {wait : Wait} {rest : List Handle}

/-- Everything that a move can do. -/
inductive Effect (s : State) : Move → State → Prop where
  | ended (read : ReadKind) (outcome : Except ReadFault read.Answer)
      (hrunning : s.isRunning read = true) (hasked : s.asked read = false) :
      Effect s (.ends read outcome) (s.finish read (ReadState.running.finish (some outcome)))
  | stopped (read : ReadKind) (hrunning : s.isRunning read = true) (hasked : s.asked read = true) :
      Effect s (.stops read) (s.finish read .cancelled)
  | interrupted (wait : Wait) (hcurrent : s.current? = some wait) :
      Effect s .interrupt (s.interrupt wait)
  | told (wait : Wait) (read : ReadKind) (rest : List Handle)
      (hready : s.ready = .tell wait read :: rest) :
      Effect s .turn (s.tell rest wait read)
  /-- The first wait raises. -/
  | raised (rest : List Handle) (raised : Raised) (hready : s.ready = .resume :: rest)
      (hplace : s.place = .reading) (hreceived : s.received? = some (.error raised)) :
      Effect s .turn ((s.wake rest).clean raised)
  /-- The first wait gives the answers. -/
  | returned (rest : List Handle) (documents : List Value) (total : Value)
      (hready : s.ready = .resume :: rest) (hplace : s.place = .reading)
      (hreceived : s.received? = some (.ok ()))
      (hpage : s.reads .page = .succeeded documents)
      (hcount : s.reads .count = .succeeded total) :
      Effect s .turn ((s.wake rest).conclude (endingOf documents total))
  /-- The last wait is over, and what was raised first is raised again or an interruption is. -/
  | cleaned (rest : List Handle) (first raised : Raised) (hready : s.ready = .resume :: rest)
      (hplace : s.place = .cleaning first)
      (hreceived : s.received? = some (.ok ()) ∧ raised = first ∨
        s.received? = some (.error raised)) :
      Effect s .turn ((s.wake rest).conclude (.error raised))
  /-- The pair has ended. -/
  | idle (rest : List Handle) (hready : s.ready = .resume :: rest) (hplace : s.current? = none) :
      Effect s .turn (s.wake rest)

theorem Resumed.result_isSome (h : s.Resumed) (hready : s.ready = .resume :: rest)
    (hcurrent : s.current? = some wait) : (s.waits wait).result.isSome = true := by
  have hcount := h wait hcurrent
  rw [hready, List.countP_cons_of_pos rfl] at hcount
  split at hcount
  · assumption
  · omega

theorem Resumed.exists_received (h : s.Resumed) (hready : s.ready = .resume :: rest)
    (hcurrent : s.current? = some wait) : ∃ result, s.received? = some result := by
  unfold received?
  split
  · exact ⟨_, rfl⟩
  · rw [hcurrent]
    exact Option.isSome_iff_exists.1 (h.result_isSome hready hcurrent)

theorem Sound.exists_answers (h : s.Sound) (hresult : (s.waits .first).result = some (.ok ())) :
    ∃ documents total,
      s.reads .page = .succeeded documents ∧ s.reads .count = .succeeded total := by
  have hsucceeded : ∀ {α : Type} {state : ReadState α}, state.isRunning = false →
      raised? state = none → ∃ value, state = .succeeded value := by
    intro α state hended hquiet
    cases state with
    | running => cases hended
    | succeeded value => exact ⟨value, rfl⟩
    | failed fault | cancelled => cases hquiet
  obtain ⟨hpage, hpage'⟩ := h.answered hresult .page
  obtain ⟨hcount, hcount'⟩ := h.answered hresult .count
  obtain ⟨documents, hdocuments⟩ := hsucceeded hpage hpage'
  obtain ⟨total, htotal⟩ := hsucceeded hcount hcount'
  exact ⟨documents, total, hdocuments, htotal⟩

theorem received?_eq_ok (hreceived : s.received? = some (.ok ()))
    (hcurrent : s.current? = some wait) :
    s.mustCancel = false ∧ (s.waits wait).result = some (.ok ()) := by
  unfold received? at hreceived
  split at hreceived
  · cases hreceived
  · rename_i hcancel
    rw [hcurrent] at hreceived
    exact ⟨by simpa using hcancel, hreceived⟩

theorem effect_of_step? (h : s.Sound) (hresumed : s.Resumed) {move : Move}
    (hstep : s.step? move = some t) : s.Effect move t := by
  cases move with
  | ends read outcome =>
      simp only [step?, Option.ite_none_right_eq_some, Bool.and_eq_true, Bool.not_eq_true',
        Option.some.injEq] at hstep
      obtain ⟨⟨hrunning, hasked⟩, rfl⟩ := hstep
      exact .ended read outcome hrunning hasked
  | stops read =>
      simp only [step?, Option.ite_none_right_eq_some, Bool.and_eq_true, Option.some.injEq] at hstep
      obtain ⟨⟨hrunning, hasked⟩, rfl⟩ := hstep
      exact .stopped read hrunning hasked
  | interrupt =>
      obtain ⟨wait, hcurrent, rfl⟩ := Option.map_eq_some_iff.1 hstep
      exact .interrupted wait hcurrent
  | turn =>
      simp only [step?] at hstep
      split at hstep
      · cases hstep
      · rename_i wait read rest hready
        cases hstep
        exact .told wait read rest hready
      · rename_i rest hready
        cases hstep
        cases hplace : s.place with
        | reading =>
            have hcurrent : s.current? = some .first := current?_of_reading hplace
            obtain ⟨result, hreceived⟩ := hresumed.exists_received hready hcurrent
            cases result with
            | error raised =>
                simp only [resume, hplace, hreceived]
                exact .raised rest raised hready hplace hreceived
            | ok _ =>
                obtain ⟨documents, total, hpage, hcount⟩ :=
                  h.exists_answers (received?_eq_ok hreceived hcurrent).2
                have hanswers : s.answers? = some (documents, total) := by
                  simp only [answers?, hpage, hcount]
                simp only [resume, hplace, hreceived, hanswers]
                exact .returned rest documents total hready hplace hreceived hpage hcount
        | cleaning first =>
            have hcurrent : s.current? = some .last := current?_of_cleaning hplace
            obtain ⟨result, hreceived⟩ := hresumed.exists_received hready hcurrent
            cases result with
            | error raised =>
                simp only [resume, hplace, hreceived]
                exact .cleaned rest first raised hready hplace (.inr hreceived)
            | ok _ =>
                simp only [resume, hplace, hreceived]
                exact .cleaned rest first first hready hplace (.inl ⟨hreceived, rfl⟩)
        | ended ending =>
            have hcurrent : s.current? = none := current?_of_ended hplace
            simp only [resume, hplace]
            exact .idle rest hready hcurrent

/-- A resumed task has its wait over, and all reads have ended if it is the last. -/
theorem Sound.isRunning_eq_false_of_last (h : s.Sound) {first : Raised}
    (hplace : s.place = .cleaning first) (hresult : (s.waits .last).result.isSome = true) :
    ∀ read, s.isRunning read = false := by
  have htold := h.told .last (mem_listening_of_current? (current?_of_cleaning hplace))
  have hle := s.length_done_le
  have htwo := h.last hresult
  exact length_done_eq_two_iff.1 (by omega)

theorem countP_isResume_wake (hresumed : s.Resumed) (hready : s.ready = .resume :: rest)
    (hcurrent : s.current? = some wait) : (s.wake rest).ready.countP Handle.isResume = 0 := by
  have hcount := hresumed wait hcurrent
  rw [if_pos (hresumed.result_isSome hready hcurrent), hready,
    List.countP_cons_of_pos rfl] at hcount
  exact Nat.succ.inj hcount

/-- Every move keeps what holds of the handles, the waits and the reads. -/
theorem sound_of_effect (h : s.Sound) (hresumed : s.Resumed) {move : Move}
    (heffect : s.Effect move t) : t.Sound ∧ t.Resumed := by
  cases heffect with
  | ended read outcome hrunning hasked =>
      have hnot : s.asked read = true →
          ReadState.running.finish (some outcome) = .cancelled := by
        intro hasks
        rw [hasked] at hasks
        cases hasks
      exact ⟨h.finish hrunning (isRunning_finish_some outcome) hnot, hresumed.finish⟩
  | stopped read hrunning hasked => exact ⟨h.finish hrunning rfl fun _ => rfl, hresumed.finish⟩
  | interrupted wait hcurrent => exact ⟨h.interrupt wait, hresumed.interrupt wait⟩
  | told wait read rest hready => exact ⟨h.tell hready, hresumed.tell h hready⟩
  | raised rest raised hready hplace hreceived =>
      have hcurrent : s.current? = some .first := current?_of_reading hplace
      have hwoken := h.wake hready
      exact ⟨hwoken.clean hplace (hresumed.result_isSome hready hcurrent),
        resumed_clean hwoken hplace (countP_isResume_wake hresumed hready hcurrent)⟩
  | returned rest documents total hready hplace hreceived hpage hcount =>
      have hcurrent : s.current? = some .first := current?_of_reading hplace
      have hended : ∀ read, s.isRunning read = false := by
        intro read
        cases read with
        | page => rw [isRunning, hpage]; rfl
        | count => rw [isRunning, hcount]; rfl
      exact ⟨(h.wake hready).conclude hcurrent (hresumed.result_isSome hready hcurrent)
        hended _,
        fun _ hnone => by cases hnone⟩
  | cleaned rest first raised hready hplace hreceived =>
      have hcurrent : s.current? = some .last := current?_of_cleaning hplace
      have hresult := hresumed.result_isSome hready hcurrent
      have hended := h.isRunning_eq_false_of_last hplace hresult
      exact ⟨(h.wake hready).conclude hcurrent hresult hended _, fun _ hnone => by cases hnone⟩
  | idle rest hready hplace =>
      refine ⟨h.wake hready, fun wait hcurrent => ?_⟩
      have hsame : s.current? = some wait := hcurrent
      rw [hplace] at hsame
      cases hsame

end State

open State

variable {moves : List Move} {s t : State}

/-- In every run the loop is as it should be. -/
theorem Runs.sound (h : Runs moves s) : s.Sound ∧ s.Resumed := by
  induction h with
  | start => exact ⟨sound_start, fun wait hcurrent => by cases hcurrent; rfl⟩
  | move _ hstep ih => exact sound_of_effect ih.1 ih.2 (effect_of_step? ih.1 ih.2 hstep)

theorem Runs.effect (h : Runs moves s) {move : Move} (hstep : s.step? move = some t) :
    s.Effect move t := effect_of_step? h.sound.1 h.sound.2 hstep

/-- Once the pair has ended, no read is running. -/
theorem Runs.isRunning_eq_false {ending : Ending} (h : Runs moves s)
    (hended : s.place = .ended ending) (read : ReadKind) : s.isRunning read = false :=
  h.sound.1.ended (current?_of_ended hended) read

end StageChain.ReadLoop
